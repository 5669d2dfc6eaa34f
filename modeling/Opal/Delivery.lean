import Opal.Machine
import Opal.SchedSpec

set_option autoImplicit false

namespace Opal

-- The exception an event is, with where it comes from.
def Event.exception : Event → Option (Source × Trap)
  | .el1 t => some (.currentSpElx, t)
  | .trap t => some (.lowerAArch64, t)
  | _ => none

namespace Machine

-- An exception from EL0 that a handler serves.
def serves (m : Machine) (t : Trap) : Bool := m.enabled (.trap t) && !m.oops

theorem serves_iff (m : Machine) (t : Trap) : m.serves t = true ↔ m.enabled (.trap t) = true ∧ m.oops = false := by
  simp [serves]

theorem not_serves (m : Machine) (t : Trap) (idle : m.enabled (.trap t) = false ∨ m.oops = true) :
    ¬ m.serves t = true := by
  rw [serves_iff]
  rintro ⟨enabled, down⟩
  rcases idle with disabled | raised
  · rw [disabled] at enabled
    cases enabled
  · rw [raised] at down
    cases down

theorem trap_el0 (m : Machine) (t : Trap) (enabled : m.enabled (.trap t) = true) : m.mode = .el0 := by
  simp only [Machine.enabled, Bool.and_eq_true, decide_eq_true_eq] at enabled
  exact enabled.1

theorem trap_pstate (m : Machine) (t : Trap) (enabled : m.enabled (.trap t) = true) : isEl0 t.pstate = true := by
  simp only [Machine.enabled, Bool.and_eq_true] at enabled
  exact enabled.2

-- The machine after a handler returned a frame: the core holds what the frame
-- held, on whatever stack pointer EL0 was using.
structure Resumed (m : Machine) (source : Source) (t : Trap) (k : Kernel) (mem : UserMem) (frame : TrapFrame)
    (after : Machine) : Prop where
  kernel : after.kernel = { k with pendingKstackSp := 0 }
  oops : after.oops = false
  mem : after.mem = mem
  text : after.text = m.text
  x : after.cpu.x = frame.x
  pc : after.cpu.pc = frame.elr
  pstate : after.cpu.pstate = frame.spsr
  spEl0 : after.cpu.spEl0 = t.spEl0
  irqMasked : after.irqMasked = m.irqMasked
  mode : after.mode = m.resumeMode source k frame

-- The machine after a handler entered the monitor loop: nothing took OOPS down.
structure Returned (m : Machine) (mem : UserMem) (k : Kernel) (after : Machine) : Prop where
  kernel : after.kernel = k
  oops : after.oops = true
  mem : after.mem = mem
  text : after.text = m.text
  irqMasked : after.irqMasked = true
  mode : after.mode = .monitor

-- The kernel once a drop has taken the head of the queue for its first task.
def dropped (k : Kernel) (first : Nat) (t : Task) : Kernel :=
  { (k.popped.setTask first { t with state := .running }).record (.dispatched first) with currentTid := first }

-- Everything drop_to_el0_scheduled can do before drop_to_el0_with.
theorem drop_cases (m : Machine) (unmask : Bool) :
    (m.kernel.ready = [] ∧ m.dropScheduled unmask = m) ∨
      (∃ first rest, m.kernel.ready = first :: rest ∧ m.kernel.task first = none ∧
        m.dropScheduled unmask = { m with kernel := m.kernel.popped.record (.vanished first) }) ∨
      (∃ first rest t, m.kernel.ready = first :: rest ∧ m.kernel.task first = some t ∧
        m.dropScheduled unmask =
          { m with
            kernel := dropped m.kernel first t
            irqMasked := if unmask then false else m.irqMasked
            mode := .dropping t.ttbr0Pa }) := by
  cases waiting : m.kernel.ready with
  | nil =>
      refine .inl ⟨rfl, ?_⟩
      simp only [dropScheduled, RingBuffer.dequeue_nil m.kernel.scheduler waiting]
  | cons first rest =>
      obtain ⟨head, _⟩ := RingBuffer.dequeue_cons m.kernel.scheduler first rest waiting
      have pair : m.kernel.scheduler.dequeue = (some first, m.kernel.scheduler.dequeue.2) := Prod.ext head rfl
      cases found : m.kernel.task first with
      | none =>
          refine .inr (.inl ⟨first, rest, rfl, found, ?_⟩)
          have gone : m.kernel.popped.task first = none := found
          simp only [Kernel.popped] at gone
          rw [dropScheduled, pair]
          simp only [gone, Kernel.popped]
      | some t =>
          refine .inr (.inr ⟨first, rest, t, rfl, found, ?_⟩)
          have live : m.kernel.popped.task first = some t := found
          simp only [Kernel.popped] at live
          rw [dropScheduled, pair]
          simp only [live, Kernel.popped, dropped]

theorem drop_oops (m : Machine) (unmask : Bool) : (m.dropScheduled unmask).oops = m.oops := by
  rcases drop_cases m unmask with ⟨_, same⟩ | ⟨_, _, _, _, same⟩ | ⟨_, _, _, _, _, same⟩
  · rw [same]
  · rw [same]
  · rw [same]

section
variable (spaces : AddressSpaces) (address : Static → UInt64) (m : Machine) (source : Source) (mem : UserMem) (t : Trap)

theorem next_enabled (event : Event) (enabled : m.enabled event = true) :
    m.next spaces address event = m.fire spaces address event := by
  rw [next, if_pos enabled]

theorem next_disabled (event : Event) (disabled : ¬ m.enabled event = true) : m.next spaces address event = m := by
  rw [next, if_neg disabled]

theorem entered_frame :
    frameAt (m.entered address source t).cpu.stack (m.entered address source t).cpu.spEl1 = t.frame m.cpu.spEl1 :=
  vector_entry_frame address _ _ _

theorem entered_sp_el0 : (m.entered address source t).cpu.spEl0 = t.spEl0 := run_keeps_sp_el0 address 0 _ _

theorem entered_arguments :
    (m.entered address source t).cpu.x 1 = t.kind.raw ∧ (m.entered address source t).cpu.x 2 = source.raw :=
  vector_entry_arguments address _ _ _

theorem restored_core (s : StubState) (pending : UInt64) (frame : TrapFrame) :
    let after := restored address s pending frame
    after.cpu.x = frame.x ∧ after.cpu.pc = frame.elr ∧ after.cpu.pstate = frame.spsr ∧
      after.cpu.spEl0 = s.cpu.spEl0 ∧ after.pending = 0 := by
  intro after
  have x := vectors_restore_x address
    { s with cpu := { s.cpu with stack := putFrame s.cpu.stack s.cpu.spEl1 frame }, pending := pending }
  obtain ⟨pc, pstate, _, cleared⟩ := vectors_restore_core address
    { s with cpu := { s.cpu with stack := putFrame s.cpu.stack s.cpu.spEl1 frame }, pending := pending }
  rw [frame_at_put_frame] at x pc pstate
  exact ⟨x, pc, pstate, run_keeps_sp_el0 address 0 _ _, cleared⟩

theorem restored_spsr (s : StubState) (pending : UInt64) (frame : TrapFrame) :
    (restored address s pending frame).cpu.spsrEl1 = frame.spsr := by
  have spsr := vectors_restore_spsr address
    { s with cpu := { s.cpu with stack := putFrame s.cpu.stack s.cpu.spEl1 frame }, pending := pending }
  rwa [frame_at_put_frame] at spsr

-- What exception_dispatch sees of the machine.
def dispatched : Bool × Outcome :=
  exceptionDispatch spaces m.oops m.kernel mem (t.frame m.cpu.spEl1) t.kind.raw source.raw t.device

theorem dispatch_arguments :
    exceptionDispatch spaces m.oops m.kernel mem
        (frameAt (m.entered address source t).cpu.stack (m.entered address source t).cpu.spEl1)
        ((m.entered address source t).cpu.x 1) ((m.entered address source t).cpu.x 2) t.device =
      dispatched spaces m source mem t := by
  obtain ⟨kind, origin⟩ := entered_arguments address m source t
  rw [entered_frame, kind, origin, dispatched]

theorem dispatched_nested (raised : m.oops = true) :
    dispatched spaces m source mem t = (true, .parked .nested m.kernel) := by
  simp only [dispatched, exceptionDispatch, raised, if_true]

theorem dispatched_normally (down : m.oops = false) :
    dispatched spaces m source mem t =
      match handle spaces m.kernel mem (t.frame m.cpu.spEl1) t.kind source t.device with
      | .resumed k mem frame => (false, .resumed k mem frame)
      | .toMonitor k => (true, .toMonitor k)
      | .parked cause k => (true, .parked cause k) := by
  cases handled : handle spaces m.kernel mem (t.frame m.cpu.spEl1) t.kind source t.device
  all_goals
    simp only [dispatched, exceptionDispatch, down, kind_from_raw, source_from_raw, Bool.false_eq_true, if_false, handled]

theorem deliver_nested (raised : m.oops = true) :
    (m.deliver spaces address source mem t).mode = .parked .nested ∧
      (m.deliver spaces address source mem t).oops = true ∧
      (m.deliver spaces address source mem t).kernel = m.kernel := by
  have seen := (dispatch_arguments spaces address m source mem t).trans (dispatched_nested spaces m source mem t raised)
  simp only [deliver, seen, and_self]

theorem deliver_resumed (down : m.oops = false) (k : Kernel) (mem' : UserMem) (frame : TrapFrame)
    (outcome : handle spaces m.kernel mem (t.frame m.cpu.spEl1) t.kind source t.device = .resumed k mem' frame) :
    Resumed m source t k mem' frame (m.deliver spaces address source mem t) := by
  have result : dispatched spaces m source mem t = (false, .resumed k mem' frame) := by
    rw [dispatched_normally spaces m source mem t down, outcome]
  have seen := (dispatch_arguments spaces address m source mem t).trans result
  obtain ⟨x, pc, pstate, spEl0, pending⟩ := restored_core address (m.entered address source t) k.pendingKstackSp frame
  constructor
  all_goals simp only [deliver, seen]
  · rw [pending]
  · exact x
  · exact pc
  · exact pstate
  · exact spEl0.trans (entered_sp_el0 address m source t)

theorem deliver_spsr (down : m.oops = false) (k : Kernel) (mem' : UserMem) (frame : TrapFrame)
    (outcome : handle spaces m.kernel mem (t.frame m.cpu.spEl1) t.kind source t.device = .resumed k mem' frame) :
    (m.deliver spaces address source mem t).cpu.spsrEl1 = frame.spsr := by
  have result : dispatched spaces m source mem t = (false, .resumed k mem' frame) := by
    rw [dispatched_normally spaces m source mem t down, outcome]
  have seen := (dispatch_arguments spaces address m source mem t).trans result
  simp only [deliver, seen]
  exact restored_spsr address (m.entered address source t) k.pendingKstackSp frame

theorem deliver_to_monitor (down : m.oops = false) (k : Kernel)
    (outcome : handle spaces m.kernel mem (t.frame m.cpu.spEl1) t.kind source t.device = .toMonitor k) :
    Returned m mem k (m.deliver spaces address source mem t) := by
  have result : dispatched spaces m source mem t = (true, .toMonitor k) := by
    rw [dispatched_normally spaces m source mem t down, outcome]
  have seen := (dispatch_arguments spaces address m source mem t).trans result
  constructor
  all_goals simp only [deliver, seen]

-- The user memory a handler finds.
def memFor (m : Machine) (source : Source) (t : Trap) : UserMem :=
  if source = .lowerAArch64 then m.memAt t else m.mem

-- What the handler of an exception does when OOPS was down.
def handled (spaces : AddressSpaces) (m : Machine) (source : Source) (t : Trap) : Outcome :=
  handle spaces m.kernel (m.memFor source t) (t.frame m.cpu.spEl1) t.kind source t.device

-- Everything one event can do to the machine.
inductive Stepped (spaces : AddressSpaces) (address : Static → UInt64) (m : Machine) (event : Event) : Machine → Prop where
  | ignored (disabled : m.enabled event = false) : Stepped spaces address m event m
  | calm (enabled : m.enabled event = true) (quiet : event.exception = none) :
      Stepped spaces address m event (m.fire spaces address event)
  | nested (enabled : m.enabled event = true) (source : Source) (t : Trap) (taken : event.exception = some (source, t))
      (raised : m.oops = true) (after : Machine) (mode : after.mode = .parked .nested) (oops : after.oops = true)
      (kernel : after.kernel = m.kernel) : Stepped spaces address m event after
  | resumed (enabled : m.enabled event = true) (source : Source) (t : Trap)
      (taken : event.exception = some (source, t)) (down : m.oops = false) (k : Kernel) (mem : UserMem)
      (frame : TrapFrame) (outcome : m.handled spaces source t = .resumed k mem frame) (after : Machine)
      (resumed : Resumed m source t k mem frame after) : Stepped spaces address m event after
  | returned (enabled : m.enabled event = true) (source : Source) (t : Trap)
      (taken : event.exception = some (source, t)) (down : m.oops = false) (k : Kernel)
      (outcome : m.handled spaces source t = .toMonitor k) (after : Machine)
      (returned : Returned m (m.memFor source t) k after) : Stepped spaces address m event after
  | parked (enabled : m.enabled event = true) (source : Source) (t : Trap)
      (taken : event.exception = some (source, t)) (down : m.oops = false) (cause : ParkCause) (k : Kernel)
      (outcome : m.handled spaces source t = .parked cause k) (after : Machine) (mode : after.mode = .parked cause)
      (oops : after.oops = true) (kernel : after.kernel = k) : Stepped spaces address m event after

theorem deliver_parked (down : m.oops = false) (cause : ParkCause) (k : Kernel)
    (outcome : handle spaces m.kernel mem (t.frame m.cpu.spEl1) t.kind source t.device = .parked cause k) :
    (m.deliver spaces address source mem t).mode = .parked cause ∧
      (m.deliver spaces address source mem t).oops = true ∧ (m.deliver spaces address source mem t).kernel = k := by
  have result : dispatched spaces m source mem t = (true, .parked cause k) := by
    rw [dispatched_normally spaces m source mem t down, outcome]
  have seen := (dispatch_arguments spaces address m source mem t).trans result
  simp only [deliver, seen, and_self]

theorem fire_exception (event : Event) (taken : event.exception = some (source, t)) :
    m.fire spaces address event = m.deliver spaces address source (m.memFor source t) t := by
  cases event with
  | el1 fault =>
      cases taken
      rfl
  | trap fault =>
      cases taken
      rfl
  | _ => cases taken

-- The same step with the frame handed to the dispatcher as it is, not by way of
-- the stub's stack. Runs on given inputs are evaluated with it.
def nextDirect (m : Machine) (event : Event) : Machine :=
  if m.enabled event = true then
    match event.exception with
    | none => m.fire spaces address event
    | some (source, t) =>
        let s := m.entered address source t
        match m.dispatched spaces source (m.memFor source t) t with
        | (oops, .resumed k mem frame) =>
            let back := restored address s k.pendingKstackSp frame
            { m with
              kernel := { k with pendingKstackSp := back.pending }
              oops := oops
              mem := mem
              cpu := back.cpu
              savedGp0 := back.savedGp0
              savedGp1 := back.savedGp1
              mode := m.resumeMode source k frame }
        | (oops, .toMonitor k) =>
            { m with
              kernel := k
              oops := oops
              mem := m.memFor source t
              cpu := s.cpu
              irqMasked := true
              mode := .monitor }
        | (oops, .parked cause k) =>
            { m with kernel := k, oops := oops, mem := m.memFor source t, cpu := s.cpu, mode := .parked cause }
  else m

theorem next_direct : next spaces address = nextDirect spaces address := by
  funext m event
  unfold next nextDirect
  by_cases enabled : m.enabled event = true
  · rw [if_pos enabled, if_pos enabled]
    cases taken : event.exception with
    | none => rfl
    | some pair =>
        obtain ⟨source, t⟩ := pair
        rw [fire_exception spaces address m source t event taken]
        rcases handled : dispatched spaces m source (m.memFor source t) t with ⟨oops, _ | _ | _⟩
        all_goals
          simp only [deliver, dispatch_arguments, handled]
  · rw [if_neg enabled, if_neg enabled]

theorem stepped (event : Event) : Stepped spaces address m event (m.next spaces address event) := by
  by_cases enabled : m.enabled event = true
  · rw [next_enabled spaces address m event enabled]
    cases taken : event.exception with
    | none => exact .calm enabled taken
    | some pair =>
        obtain ⟨source, t⟩ := pair
        rw [fire_exception spaces address m source t event taken]
        cases raised : m.oops with
        | true =>
            obtain ⟨mode, oops, kernel⟩ := deliver_nested spaces address m source (m.memFor source t) t raised
            exact .nested enabled source t taken raised _ mode oops kernel
        | false =>
            cases outcome : m.handled spaces source t with
            | resumed k mem' frame =>
                exact .resumed enabled source t taken raised k mem' frame outcome _
                  (deliver_resumed spaces address m source _ t raised k mem' frame outcome)
            | toMonitor k =>
                exact .returned enabled source t taken raised k outcome _
                  (deliver_to_monitor spaces address m source _ t raised k outcome)
            | parked cause k =>
                obtain ⟨mode, oops, kernel⟩ := deliver_parked spaces address m source _ t raised cause k outcome
                exact .parked enabled source t taken raised cause k outcome _ mode oops kernel
  · rw [next_disabled spaces address m event enabled]
    exact .ignored (Bool.eq_false_iff.mpr enabled)

end

end Machine

end Opal
