import Opal.Delivery
import Opal.Handled

set_option autoImplicit false

namespace Opal

-- Is the exception the virtual timer's?
def isTick (t : Trap) : Bool :=
  match t.kind with
  | .irq => t.device.irqId = timerIrq
  | .fiq => t.device.timerFired
  | _ => false

-- Everything an exception from EL0 can lead to, when OOPS was down.
inductive Trapped (spaces : AddressSpaces) (k : Kernel) (mem : UserMem) (frame : TrapFrame) (t : Trap) : Outcome → Prop where
  | svc (call : isSvc t = true) (outcome : Outcome) (handled : Handled spaces k mem frame outcome) :
      Trapped spaces k mem frame t outcome
  | fault (sync : t.kind = .synchronous) (other : isSvc t = false) :
      Trapped spaces k mem frame t (killTaskFromEl0 spaces k mem frame)
  | tick (async : isSvc t = false) (ticks : isTick t = true) : Trapped spaces k mem frame t (serviceTick k mem frame)
  | ignored (async : t.kind ≠ .synchronous) (quiet : isTick t = false) :
      Trapped spaces k mem frame t (.resumed k mem frame)
  | sError (async : t.kind = .sError) : Trapped spaces k mem frame t (.parked .fatal k)

theorem irq_from_el0 (spaces : AddressSpaces) (k : Kernel) (mem : UserMem) (frame : TrapFrame) (t : Trap)
    (irq : t.kind = .irq) : Trapped spaces k mem frame t (handleIrq k mem frame t.device) := by
  have async : isSvc t = false := by simp [isSvc, irq]
  unfold handleIrq
  split_ifs with spurious timer
  · have quiet : isTick t = false := by
      simp only [isTick, irq, decide_eq_false_iff_not]
      intro same
      rw [same] at spurious
      exact absurd spurious (by decide)
    exact .ignored (by rw [irq]; decide) quiet
  · exact .tick async (by simp only [isTick, irq, timer, decide_true])
  · exact .ignored (by rw [irq]; decide) (by simp only [isTick, irq, timer, decide_false])

theorem fiq_from_el0 (spaces : AddressSpaces) (k : Kernel) (mem : UserMem) (frame : TrapFrame) (t : Trap)
    (fiq : t.kind = .fiq) : Trapped spaces k mem frame t (handleFiq k mem frame t.device) := by
  have async : isSvc t = false := by simp [isSvc, fiq]
  unfold handleFiq
  split_ifs with fired
  · exact .tick async (by simp only [isTick, fiq, fired])
  · have quiet : isTick t = false := by
      simp only [isTick, fiq]
      exact Bool.eq_false_iff.mpr fired
    exact .ignored (by rw [fiq]; decide) quiet

theorem trapped (spaces : AddressSpaces) (k : Kernel) (mem : UserMem) (frame : TrapFrame) (t : Trap)
    (esr : frame.esr = t.esr) :
    Trapped spaces k mem frame t (handle spaces k mem frame t.kind .lowerAArch64 t.device) := by
  cases kind : t.kind with
  | synchronous =>
      simp only [handle, handleSyncFromEl0]
      by_cases svc : exceptionClass frame.esr = ecSvc64
      · rw [if_pos svc]
        rw [esr] at svc
        exact .svc (by simp [isSvc, kind, svc]) _ (svc_handled spaces k mem frame)
      · rw [if_neg svc]
        rw [esr] at svc
        exact .fault kind (by simp [isSvc, svc])
  | irq => exact irq_from_el0 spaces k mem frame t kind
  | fiq => exact fiq_from_el0 spaces k mem frame t kind
  | sError => exact .sError kind

theorem Machine.handled_trapped (spaces : AddressSpaces) (m : Machine) (t : Trap) :
    Trapped spaces m.kernel (m.memAt t) (t.frame m.cpu.spEl1) t (m.handled spaces .lowerAArch64 t) :=
  trapped spaces m.kernel (m.memAt t) (t.frame m.cpu.spEl1) t rfl

theorem Machine.handled_svc (spaces : AddressSpaces) (m : Machine) (t : Trap) (call : isSvc t = true) :
    m.handled spaces .lowerAArch64 t = handleSvcFromEl0 spaces m.kernel (m.memAt t) (t.frame m.cpu.spEl1) := by
  simp only [isSvc, decide_eq_true_eq] at call
  have esr : exceptionClass (t.frame m.cpu.spEl1).esr = ecSvc64 := call.2
  simp only [Machine.handled, handle, call.1, handleSyncFromEl0, if_pos esr]
  rfl

theorem Machine.handled_fault (spaces : AddressSpaces) (m : Machine) (t : Trap) (sync : t.kind = .synchronous)
    (other : isSvc t = false) :
    m.handled spaces .lowerAArch64 t = killTaskFromEl0 spaces m.kernel (m.memAt t) (t.frame m.cpu.spEl1) := by
  simp only [isSvc, sync, true_and, decide_eq_false_iff_not] at other
  have esr : ¬ exceptionClass (t.frame m.cpu.spEl1).esr = ecSvc64 := other
  simp only [Machine.handled, handle, sync, handleSyncFromEl0, if_neg esr]
  rfl

theorem tick_not_sync (t : Trap) (ticks : isTick t = true) : t.kind ≠ .synchronous := by
  intro sync
  simp only [isTick, sync, Bool.false_eq_true] at ticks

theorem Machine.handled_tick (spaces : AddressSpaces) (m : Machine) (event : Event) (source : Source) (t : Trap)
    (taken : event.exception = some (source, t)) (ticks : isTick t = true) :
    m.handled spaces source t = serviceTick m.kernel (m.memFor source t) (t.frame m.cpu.spEl1) := by
  have origin : source = .currentSpElx ∨ source = .lowerAArch64 := by
    cases event with
    | el1 fault =>
        cases taken
        exact .inl rfl
    | trap fault =>
        cases taken
        exact .inr rfl
    | _ => cases taken
  cases kind : t.kind with
  | synchronous => exact absurd kind (tick_not_sync t ticks)
  | irq =>
      simp only [isTick, kind, decide_eq_true_eq] at ticks
      rcases origin with rfl | rfl
      · simp only [Machine.handled, handle, kind, handleIrq, ticks]
        rfl
      · simp only [Machine.handled, handle, kind, handleIrq, ticks]
        rfl
  | fiq =>
      simp only [isTick, kind] at ticks
      rcases origin with rfl | rfl
      · simp only [Machine.handled, handle, kind, handleFiq, ticks, if_true]
      · simp only [Machine.handled, handle, kind, handleFiq, ticks, if_true]
  | sError => simp only [isTick, kind, Bool.false_eq_true] at ticks

theorem from_el1 (spaces : AddressSpaces) (k : Kernel) (mem : UserMem) (frame : TrapFrame) (kind : Kind)
    (device : Device) :
    (∃ frame', frame'.spsr = frame.spsr ∧ handle spaces k mem frame kind .currentSpElx device = .resumed k mem frame') ∨
      handle spaces k mem frame kind .currentSpElx device = serviceTick k mem frame ∨
      handle spaces k mem frame kind .currentSpElx device = .parked .fatal k := by
  cases kind with
  | synchronous =>
      simp only [handle, handleSync]
      split_ifs
      · exact .inl ⟨{ frame with elr := frame.elr + 4 }, rfl, rfl⟩
      · exact .inl ⟨frame, rfl, rfl⟩
      · exact .inr (.inr rfl)
  | irq =>
      simp only [handle, handleIrq]
      split_ifs
      · exact .inl ⟨frame, rfl, rfl⟩
      · exact .inr (.inl rfl)
      · exact .inl ⟨frame, rfl, rfl⟩
  | fiq =>
      simp only [handle, handleFiq]
      split_ifs
      · exact .inr (.inl rfl)
      · exact .inl ⟨frame, rfl, rfl⟩
  | sError => exact .inr (.inr rfl)

end Opal
