import Opal.Pending

set_option autoImplicit false

namespace Opal

-- Only sleep is not made again when its task wakes.
def Call.rewinds : Call → Bool
  | .sleep _ => false
  | _ => true

theorem Call.saved_rewinds (call : Call) (frame : TrapFrame) (rewinds : call.rewinds = true) :
    call.saved frame = { frame with elr := frame.elr - 4 } := by
  cases call with
  | sleep _ => cases rewinds
  | _ => rfl

-- A context that goes on by making the outstanding call again.
structure Pending.AtSvc (p : Pending) (frame : TrapFrame) : Prop where
  x : frame.x = p.frame.x
  elr : frame.elr = p.frame.elr - 4
  el0 : isEl0 frame.spsr = true

section
variable (k : Kernel) (mem : UserMem) (frame : TrapFrame)

theorem tick_frame (k' : Kernel) (mem' : UserMem) (frame' : TrapFrame)
    (result : serviceTick k mem frame = .resumed k' mem' frame') (stays : k'.dispatches = k.dispatches) :
    frame' = frame := by
  have woken : (onTick k).wakeSleepers.dispatches = k.dispatches := (Kernel.SameTask.sweep (onTick k) _).dispatches
  unfold serviceTick at result
  dsimp only at result
  split_ifs at result with preempts found
  · cases result
    have moved := Kernel.switch_dispatches ((onTick k).wakeSleepers.saveCurrent frame) frame found
    rw [(Kernel.SameTask.save (onTick k).wakeSleepers frame).dispatches, woken] at moved
    exact absurd stays moved
  · cases result
    exact Kernel.switch_fails_frame _ _ (Bool.eq_false_iff.mpr found)
  · cases result
    rfl

theorem block_dispatches (call : Call) (finds : ((blockedKernel k call).blockAndSwitch (call.saved frame)).1 = true) :
    ((blockedKernel k call).blockAndSwitch (call.saved frame)).2.1.dispatches ≠ k.dispatches := by
  have user := block_finds_user k frame call finds
  have current : (blockedKernel k call).currentTid ≠ 0 := by
    rw [blockedKernel, Kernel.edit_task_current]
    exact user
  have marked : (blockedKernel k call).dispatches = k.dispatches := (Kernel.SameTask.edit k _ _).dispatches
  have blocked : ((blockedKernel k call).blockCurrent (call.saved frame)).dispatches = (blockedKernel k call).dispatches :=
    (Kernel.SameTask.edit (blockedKernel k call) _ _).dispatches
  rw [Kernel.blockAndSwitch, if_neg current] at finds ⊢
  rw [← marked, ← blocked]
  exact Kernel.switch_dispatches _ _ finds

end

namespace Machine

-- While handlers are served, a task with an outstanding call of the kind that
-- is made again stands on its svc with the registers of the first time.
structure Retries (m : Machine) (pend : Nat → Option Pending) : Prop where
  settled : m.oops = false → m.mode = .monitor → ∀ tid, pend tid = none
  away : m.oops = false → ∀ tid p, pend tid = some p → p.call.rewinds = true → tid ≠ m.kernel.currentTid →
    p.AtSvc (m.kernel.table tid).saved
  here : m.oops = false → ∀ p, pend m.kernel.currentTid = some p → p.call.rewinds = true →
    m.mode = .el0 ∧ m.cpu.x = p.frame.x ∧ m.cpu.pc = p.frame.elr - 4
  asks : ∀ tid p, pend tid = some p → p.call.Asks p.frame
  text : m.oops = false → ∀ tid p, pend tid = some p → p.call.rewinds = true →
    m.text (m.kernel.table tid).ttbr0Pa (p.frame.elr - 4) = true

section
variable (spaces : AddressSpaces) (address : Static → UInt64) (m : Machine) (pend : Nat → Option Pending)

theorem pends_asks (asks : ∀ tid p, pend tid = some p → p.call.Asks p.frame) (event : Event) (after : Machine)
    (tid : Nat) (p : Pending) (waits : pends spaces m event after pend tid = some p) : p.call.Asks p.frame := by
  by_cases own : ∃ t, event = .trap t ∧ m.serves t = true ∧ t.kind = .synchronous
  · obtain ⟨t, rfl, serves, sync⟩ := own
    rw [pends_sync spaces m pend t after serves sync] at waits
    by_cases here : tid = m.kernel.currentTid
    · rw [here, Function.update_self] at waits
      split_ifs at waits with call
      obtain ⟨blocks, _, frame, _⟩ := falls_asleep m.kernel _ _ spaces p waits
      rw [frame]
      exact (blocking_asks spaces m.kernel _ _ p.call blocks).1
    · rw [Function.update_of_ne here] at waits
      exact asks tid p waits
  · rw [pends_other spaces m pend event after fun t same both => own ⟨t, same, both⟩] at waits
    exact asks tid p waits

-- A task back on its svc either makes the very same call or is interrupted
-- before it does.
theorem retry_trap (grounded : m.Grounded) (sleepers : Sleepers m.kernel pend) (retries : m.Retries pend) (t : Trap)
    (down : m.oops = false) (possible : m.PossibleTrap t) (p : Pending) (waits : pend m.kernel.currentTid = some p)
    (rewinds : p.call.rewinds = true) :
    m.Unmoved t ∧ t.x = p.frame.x ∧
      (t.kind ≠ .synchronous ∧ t.pc = p.frame.elr - 4 ∨ isSvc t = true ∧ t.pc = p.frame.elr) := by
  have user := (grounded.confined _ (sleepers.live _ p waits)).1
  obtain ⟨el0, x, pc⟩ := retries.here down p waits rewinds
  have root := grounded.space down (Nat.ne_of_gt user) el0
  have onSvc : m.text m.kernel.ttbr0 m.cpu.pc = true := by
    rw [root, pc]
    exact retries.text down _ p waits rewinds
  obtain ⟨unmoved, goes⟩ := possible.on_svc onSvc
  refine ⟨unmoved, unmoved.1.trans x, ?_⟩
  rcases goes with ⟨async, same⟩ | ⟨call, same⟩
  · exact .inl ⟨async, same.trans pc⟩
  · refine .inr ⟨call, ?_⟩
    rw [same, pc, UInt64.sub_add_cancel]

-- The context left behind by an exception is on the svc of what its task now
-- has outstanding.
theorem left_at_svc (grounded : m.Grounded) (sleepers : Sleepers m.kernel pend) (retries : m.Retries pend)
    (event : Event) (possible : m.Possible event) (source : Source) (t : Trap)
    (taken : event.exception = some (source, t)) (enabled : m.enabled event = true) (down : m.oops = false)
    (after : Machine) (p : Pending) (waits : pends spaces m event after pend m.kernel.currentTid = some p)
    (rewinds : p.call.rewinds = true) : p.AtSvc (m.leftBy spaces source t) := by
  rcases handled_pends spaces m pend event source t taken enabled down after with
    ⟨rfl, rfl, serves, sync⟩ | ⟨async, still⟩
  · rw [pends_sync spaces m pend t after serves sync, Function.update_self] at waits
    split_ifs at waits with call
    obtain ⟨blocks, _, frame, _⟩ := falls_asleep m.kernel _ _ spaces p waits
    have left : m.leftBy spaces .lowerAArch64 t = p.call.saved (t.frame m.cpu.spEl1) := by
      simp only [leftBy, if_true, leaving, call, blocks]
    rw [left, p.call.saved_rewinds _ rewinds]
    exact ⟨by rw [frame], by rw [frame], m.trap_pstate t enabled⟩
  · rw [still] at waits
    obtain ⟨el0, _, _⟩ := retries.here down p waits rewinds
    cases event with
    | el1 fault =>
        cases taken
        simp [Machine.enabled, el0] at enabled
    | trap fault =>
        cases taken
        obtain ⟨_, x, ⟨kind, pc⟩ | ⟨call, _⟩⟩ := retry_trap m pend grounded sleepers retries t down possible p waits rewinds
        · have left : m.leftBy spaces .lowerAArch64 t = t.frame m.cpu.spEl1 := by
            simp [leftBy, leaving, isSvc, kind]
          rw [left]
          exact ⟨x, pc, m.trap_pstate t enabled⟩
        · simp only [isSvc, decide_eq_true_eq] at call
          exact absurd call.1 (async.resolve_left (by decide))
    | _ => cases taken

theorem async_frame (t : Trap) (async : t.kind ≠ .synchronous) (k : Kernel) (mem : UserMem) (frame : TrapFrame)
    (outcome : m.handled spaces .lowerAArch64 t = .resumed k mem frame) (stays : k.dispatches = m.kernel.dispatches) :
    frame = m.leftBy spaces .lowerAArch64 t := by
  have left : m.leftBy spaces .lowerAArch64 t = t.frame m.cpu.spEl1 := by
    simp [leftBy, leaving, isSvc, async]
  have trapped := m.handled_trapped spaces t
  rw [left]
  generalize m.handled spaces .lowerAArch64 t = result at trapped outcome
  cases trapped with
  | svc call _ _ =>
      simp only [isSvc, decide_eq_true_eq] at call
      exact absurd call.1 async
  | fault sync _ => exact absurd sync async
  | tick _ _ => exact tick_frame m.kernel _ _ k mem frame outcome stays
  | ignored _ _ =>
      cases outcome
      rfl
  | sError _ => cases outcome

theorem resumed_at_svc (grounded : m.Grounded) (sleepers : Sleepers m.kernel pend) (retries : m.Retries pend)
    (event : Event) (possible : m.Possible event) (source : Source) (t : Trap)
    (taken : event.exception = some (source, t)) (enabled : m.enabled event = true) (down : m.oops = false)
    (after : Machine) (k : Kernel) (mem : UserMem) (frame : TrapFrame)
    (outcome : m.handled spaces source t = .resumed k mem frame) (p : Pending)
    (waits : pends spaces m event after pend k.currentTid = some p) (rewinds : p.call.rewinds = true) :
    p.AtSvc frame := by
  have behind := left_at_svc spaces m pend grounded sleepers retries event possible source t taken enabled down after
  have onward := (m.exception_onward spaces grounded.confined event source t taken).resumes k mem frame outcome
  have pended := handled_pends spaces m pend event source t taken enabled down after
  cases onward with
  | stays same _ _ =>
      rw [same.current] at waits
      have left := behind p waits rewinds
      rcases pended with ⟨rfl, rfl, serves, sync⟩ | ⟨async, still⟩
      · rw [pends_sync spaces m pend t after serves sync, Function.update_self] at waits
        split_ifs at waits with call
        obtain ⟨blocks, finds, _, _⟩ := falls_asleep m.kernel _ _ spaces p waits
        rw [m.handled_svc spaces t call, handled_blocks _ _ _ _ _ blocks, blockFor] at outcome
        simp only [finds, if_true, Outcome.resumed.injEq] at outcome
        have moved := block_dispatches m.kernel (t.frame m.cpu.spEl1) p.call finds
        rw [outcome.1] at moved
        exact absurd same.dispatches moved
      · rw [still] at waits
        obtain ⟨el0, _, _⟩ := retries.here down p waits rewinds
        cases event with
        | el1 fault =>
            cases taken
            simp [Machine.enabled, el0] at enabled
        | trap fault =>
            cases taken
            rwa [async_frame spaces m t (async.resolve_left (by decide)) k mem frame outcome same.dispatches]
        | _ => cases taken
  | switches next _ _ goes _ _ loads =>
      rw [goes] at waits
      rw [loads]
      by_cases own : next = m.kernel.currentTid
      · rw [if_pos own]
        exact behind p (own ▸ waits) rewinds
      · rw [if_neg own]
        have still : pends spaces m event after pend next = pend next := by
          rcases pended with ⟨rfl, rfl, serves, sync⟩ | ⟨_, still⟩
          · rw [pends_sync spaces m pend t after serves sync, Function.update_of_ne own]
          · rw [still]
        rw [still] at waits
        exact retries.away down next p waits rewinds own

theorem retries_resumed (grounded : m.Grounded) (sleepers : Sleepers m.kernel pend) (retries : m.Retries pend)
    (event : Event) (possible : m.Possible event) (source : Source) (t : Trap)
    (taken : event.exception = some (source, t)) (enabled : m.enabled event = true) (down : m.oops = false)
    (k : Kernel) (mem : UserMem) (frame : TrapFrame) (outcome : m.handled spaces source t = .resumed k mem frame)
    (after : Machine) (resumed : Resumed m source t k mem frame after)
    (slept : Sleepers k (pends spaces m event after pend)) : after.Retries (pends spaces m event after pend) := by
  have atSvc := resumed_at_svc spaces m pend grounded sleepers retries event possible source t taken enabled down after
    k mem frame outcome
  have behind := left_at_svc spaces m pend grounded sleepers retries event possible source t taken enabled down after
  have onward := m.exception_onward spaces grounded.confined event source t taken
  have left := handled_leaves spaces m event source t taken
  have pended := handled_pends spaces m pend event source t taken enabled down after
  rw [outcome] at onward left
  dsimp only [Outcome.kernel] at left
  have others : ∀ tid, tid ≠ m.kernel.currentTid → pends spaces m event after pend tid = pend tid := by
    intro tid other
    rcases pended with ⟨rfl, rfl, serves, sync⟩ | ⟨_, still⟩
    · rw [pends_sync spaces m pend t after serves sync, Function.update_of_ne other]
    · rw [still]
  have table : after.kernel.table = k.table := by rw [resumed.kernel]
  have running : after.kernel.currentTid = k.currentTid := by rw [resumed.kernel]
  refine ⟨fun _ monitor => ?_, fun _ tid p waits rewinds away => ?_, fun _ p waits rewinds => ?_,
    pends_asks spaces m pend retries.asks event after, fun _ tid p waits rewinds => ?_⟩
  · rw [resumed.mode, resumeMode] at monitor
    split_ifs at monitor with _ own
    intro tid
    rcases pended with ⟨_, lower, _⟩ | ⟨_, still⟩
    · rw [lower] at own
      cases own.1
    · rw [still]
      exact retries.settled down monitor tid
  · rw [table]
    rw [running] at away
    by_cases own : tid = m.kernel.currentTid
    · subst own
      have saved := (onward.behind (Ne.symm away)).resolve_left (slept.live _ p waits)
      change (k.table m.kernel.currentTid).saved = _ at saved
      rw [saved]
      exact behind p waits rewinds
    · have saved : (k.table tid).saved = (m.kernel.table tid).saved := congrArg (·.1) (left.others tid own)
      rw [others tid own] at waits
      rw [saved]
      exact retries.away down tid p waits rewinds own
  · rw [running] at waits
    have back := atSvc p waits rewinds
    refine ⟨?_, resumed.x.trans back.x, resumed.pc.trans back.elr⟩
    rw [resumed.mode, resumeMode, if_pos back.el0]
  · rw [table, resumed.text, left.space]
    rcases pended with ⟨rfl, rfl, serves, sync⟩ | ⟨_, still⟩
    · rw [pends_sync spaces m pend t after serves sync] at waits
      by_cases own : tid = m.kernel.currentTid
      · rw [own, Function.update_self] at waits
        split_ifs at waits with call
        obtain ⟨_, finds, made, _⟩ := falls_asleep m.kernel _ _ spaces p waits
        have user := block_finds_user m.kernel (t.frame m.cpu.spEl1) p.call finds
        rw [own, ← grounded.space down user (m.trap_el0 t enabled), made]
        exact possible.from_svc call
      · rw [Function.update_of_ne own] at waits
        exact retries.text down tid p waits rewinds
    · rw [still] at waits
      exact retries.text down tid p waits rewinds

theorem retries_fire (retries : m.Retries pend) (event : Event) (enabled : m.enabled event = true) (quiet : event.exception = none) :
    (m.fire spaces address event).Retries pend := by
  have nobody : m.oops = false → m.mode = .monitor → ∀ tid p, pend tid = some p → False := by
    intro down monitor tid p waits
    rw [retries.settled down monitor tid] at waits
    cases waits
  cases event with
  | enter residue =>
      cases dropping : m.mode with
      | dropping root =>
          simp only [fire, dropping]
          refine ⟨fun _ no => (by cases no), retries.away, fun down p waits rewinds => ?_, retries.asks, retries.text⟩
          have el0 := (retries.here down p waits rewinds).1
          rw [dropping] at el0
          cases el0
      | _ => simp [Machine.enabled, dropping] at enabled
  | el1 t => cases quiet
  | trap t => cases quiet
  | drop unmask =>
      have monitor : m.mode = .monitor := of_decide_eq_true enabled
      have oops : (m.dropScheduled unmask).oops = m.oops := drop_oops m unmask
      refine ⟨fun down _ => ?_, fun down => ?_, fun down => ?_, retries.asks, fun down => ?_⟩
      all_goals rw [fire, oops] at down
      · exact retries.settled down monitor
      · exact fun tid p waits => (nobody down monitor tid p waits).elim
      · exact fun p waits => (nobody down monitor _ p waits).elim
      · exact fun tid p waits => (nobody down monitor tid p waits).elim
  | _ =>
      have monitor : m.mode = .monitor := of_decide_eq_true enabled
      refine ⟨fun down _ => retries.settled down monitor, fun down => ?_, fun down => ?_, retries.asks, fun down => ?_⟩
      · exact fun tid p waits => (nobody down monitor tid p waits).elim
      · exact fun p waits => (nobody down monitor _ p waits).elim
      · exact fun tid p waits => (nobody down monitor tid p waits).elim

theorem retries_raised (asks : ∀ tid p, pend tid = some p → p.call.Asks p.frame) (raised : m.oops = true) :
    m.Retries pend := by
  have up : ¬ m.oops = false := by
    rw [raised]
    exact fun no => (by cases no)
  exact ⟨fun down => absurd down up, fun down => absurd down up, fun down => absurd down up, asks,
    fun down => absurd down up⟩

theorem retries_step (grounded : m.Grounded) (sleepers : Sleepers m.kernel pend) (retries : m.Retries pend)
    (event : Event) (possible : m.Possible event) :
    (m.next spaces address event).Retries (pends spaces m event (m.next spaces address event) pend) := by
  have slept := sleepers_step spaces address m pend grounded sleepers event
  have asks := pends_asks spaces m pend retries.asks event (m.next spaces address event)
  have step := stepped spaces address m event
  generalize m.next spaces address event = after at step slept asks
  cases step with
  | ignored disabled =>
      rw [pends_other spaces m pend event m fun t same both => m.not_serves t (.inl (same ▸ disabled)) both.1]
      exact retries
  | calm enabled quiet =>
      rw [pends_other spaces m pend event _ (fun t same => by rw [same] at quiet; cases quiet)]
      exact retries_fire spaces address m pend retries event enabled quiet
  | nested _ _ _ _ _ after _ oops _ => exact retries_raised after _ asks oops
  | resumed enabled source t taken down k mem frame outcome after resumed =>
      refine retries_resumed spaces m pend grounded sleepers retries event possible source t taken enabled down k mem
        frame outcome after resumed (slept.same ?_ ?_)
      · rw [resumed.kernel]
      · rw [resumed.kernel]
  | returned _ _ _ _ _ _ _ after returned => exact retries_raised after _ asks returned.oops
  | parked _ _ _ _ _ _ _ _ after _ oops _ => exact retries_raised after _ asks oops

theorem boot_retries (spaces : AddressSpaces) (cpu : Cpu) : (boot spaces cpu).Retries fun _ => none :=
  ⟨fun _ _ _ => rfl, fun _ _ _ no => (by cases no), fun _ _ no => (by cases no), fun _ _ no => (by cases no),
    fun _ _ _ no => (by cases no)⟩

end

end Machine

end Opal
