import Opal.Run
import Opal.Stub
import Opal.Vectors

set_option autoImplicit false

namespace Opal

-- dropping is kernel code between set_current_tid and the eret of
-- drop_to_el0_with.
inductive Mode where
  | monitor
  | dropping (root : UInt64)
  | el0
  | parked (cause : ParkCause)
  deriving DecidableEq, Repr

-- text says which addresses of a user space hold an svc instruction. The code
-- page is not writable at EL0, so only a build changes it.
structure Machine where
  kernel : Kernel
  oops : Bool
  mem : UserMem
  text : UInt64 → UInt64 → Bool
  cpu : Cpu
  savedGp0 : UInt64
  savedGp1 : UInt64
  irqMasked : Bool
  mode : Mode

-- space is the address space as the program has left it.
structure Trap where
  kind : Kind
  x : Fin 31 → UInt64
  pc : UInt64
  pstate : UInt64
  spEl0 : UInt64
  space : Nat → UInt8
  esr : UInt64
  far : UInt64
  device : Device

-- A demo command is a build and a spawn for each of its tasks, then arm if it
-- wants the timer, then drop. dropUser is el0 and el0fault, unmask tick and
-- ticktest. el1 is an exception taken from the kernel's own code, enter the eret
-- of drop_to_el0_with, with what x19 to x30 still hold.
inductive Event where
  | build (root : UInt64) (image : Nat → UInt8) (code : UInt64 → Bool)
  | spawn (args : Kernel.SpawnArgs)
  | arm
  | drop (unmask : Bool)
  | dropUser (root : UInt64)
  | unmask
  | el1 (t : Trap)
  | enter (residue : Fin 31 → UInt64)
  | trap (t : Trap)

def isEl0 (pstate : UInt64) : Bool := pstate &&& 0x1f = 0

def isSvc (t : Trap) : Bool := t.kind = .synchronous ∧ exceptionClass t.esr = ecSvc64

def Trap.frame (t : Trap) (sp : UInt64) : TrapFrame := ⟨t.x, sp, t.pc, t.pstate, t.esr, t.far⟩

def Cpu.interrupted (cpu : Cpu) (t : Trap) : Cpu :=
  { cpu with x := t.x, spEl0 := t.spEl0, elrEl1 := t.pc, spsrEl1 := t.pstate, esrEl1 := t.esr, farEl1 := t.far }

namespace Machine

def boot (spaces : AddressSpaces) (cpu : Cpu) : Machine where
  kernel :=
    { table := fun _ => Task.empty
      currentTid := 0
      scheduler := .empty 0 (by decide)
      pendingKstackSp := 0
      ticks := 0
      preempt := false
      preempts := 0
      ttbr0 := spaces.emptyRoot
      history := [] }
  oops := false
  mem := fun _ _ => 0
  text := fun _ _ => false
  cpu := cpu
  savedGp0 := 0
  savedGp1 := 0
  irqMasked := true
  mode := .monitor

def build (m : Machine) (root : UInt64) (image : Nat → UInt8) (code : UInt64 → Bool) : Machine :=
  { m with mem := Function.update m.mem root image, text := Function.update m.text root code }

-- The tail of drop_to_el0_scheduled and its siblings, up to drop_to_el0_with.
def dropScheduled (m : Machine) (unmask : Bool) : Machine :=
  match m.kernel.scheduler.dequeue with
  | (none, _) => m
  | (some first, rest) =>
      let k := { m.kernel with scheduler := rest }
      match k.task first with
      | none => { m with kernel := k.record (.vanished first) }
      | some t =>
          { m with
            kernel := { (k.setTask first { t with state := .running }).record (.dispatched first) with currentTid := first }
            irqMasked := if unmask then false else m.irqMasked
            mode := .dropping t.ttbr0Pa }

def enter (m : Machine) (root : UInt64) (residue : Fin 31 → UInt64) : Machine :=
  { m with
    kernel := { m.kernel with ttbr0 := root }
    cpu :=
      { m.cpu with
        x := fun i => if i.val < 19 then 0 else residue i
        pc := userCodeVa
        pstate := 0
        spEl0 := userStackTop
        elrEl1 := userCodeVa
        spsrEl1 := 0 }
    mode := .el0 }

-- An eret into EL1 goes back to the interrupted kernel code, or to the drop a
-- task's slot was saved from.
def resumeMode (m : Machine) (source : Source) (k : Kernel) (frame : TrapFrame) : Mode :=
  if isEl0 frame.spsr then .el0
  else if source = .currentSpElx ∧ k.currentTid = m.kernel.currentTid then m.mode
  else .dropping (k.table k.currentTid).ttbr0Pa

def memAt (m : Machine) (t : Trap) : UserMem := Function.update m.mem m.kernel.ttbr0 t.space

section
variable (spaces : AddressSpaces) (address : Static → UInt64)

def entered (m : Machine) (source : Source) (t : Trap) : StubState :=
  runFrom address 0 (vectorEntry t.kind.raw source.raw)
    ⟨m.cpu.interrupted t, m.kernel.pendingKstackSp, m.savedGp0, m.savedGp1⟩

def restored (s : StubState) (pending : UInt64) (frame : TrapFrame) : StubState :=
  runFrom address 0 vectorsRestore
    { s with cpu := { s.cpu with stack := putFrame s.cpu.stack s.cpu.spEl1 frame }, pending := pending }

def deliver (m : Machine) (source : Source) (mem : UserMem) (t : Trap) : Machine :=
  let s := m.entered address source t
  match exceptionDispatch spaces m.oops m.kernel mem (frameAt s.cpu.stack s.cpu.spEl1) (s.cpu.x 1) (s.cpu.x 2)
      t.device with
  | (oops, .resumed k mem frame) =>
      let back := restored address s k.pendingKstackSp frame
      { m with
        kernel := { k with pendingKstackSp := back.pending }
        oops := oops
        mem := mem
        cpu := back.cpu
        savedGp0 := back.savedGp0
        savedGp1 := back.savedGp1
        mode := m.resumeMode source k frame }
  | (oops, .toMonitor k) =>
      { m with kernel := k, oops := oops, mem := mem, cpu := s.cpu, irqMasked := true, mode := .monitor }
  | (oops, .parked cause k) =>
      { m with kernel := k, oops := oops, mem := mem, cpu := s.cpu, mode := .parked cause }

-- An exception from EL1 code is an interrupt that DAIF lets through or, in the
-- monitor, a fault or a call of the command's own.
def enabled (m : Machine) : Event → Bool
  | .el1 t =>
      !isEl0 t.pstate &&
        match m.mode with
        | .monitor => t.kind = .synchronous || t.kind = .irq && !m.irqMasked
        | .dropping _ => t.kind = .irq && !m.irqMasked
        | _ => false
  | .enter _ => match m.mode with | .dropping _ => true | _ => false
  | .trap t => decide (m.mode = .el0) && isEl0 t.pstate
  | _ => m.mode = .monitor

def fire (m : Machine) : Event → Machine
  | .build root image code => m.build root image code
  | .spawn args => { m with kernel := (m.kernel.spawn args).2 }
  | .arm => { m with kernel := { m.kernel with preempt := true } }
  | .drop unmask => m.dropScheduled unmask
  | .dropUser root => { m with mode := .dropping root }
  | .unmask => { m with irqMasked := false }
  | .el1 t => m.deliver spaces address .currentSpElx m.mem t
  | .enter residue =>
      match m.mode with
      | .dropping root => m.enter root residue
      | _ => m
  | .trap t => m.deliver spaces address .lowerAArch64 (m.memAt t) t

def next (m : Machine) (event : Event) : Machine := if m.enabled event then m.fire spaces address event else m

end

def Unmoved (m : Machine) (t : Trap) : Prop :=
  t.x = m.cpu.x ∧ t.spEl0 = m.cpu.spEl0 ∧ t.space = m.mem m.kernel.ttbr0

-- A task is free to have executed anything it likes, except that an svc trap
-- comes from an svc instruction, and that a task put back on an svc executes
-- just that svc unless an interrupt comes first.
structure PossibleTrap (m : Machine) (t : Trap) : Prop where
  from_svc : isSvc t = true → m.text m.kernel.ttbr0 (t.pc - 4) = true
  on_svc : m.text m.kernel.ttbr0 m.cpu.pc = true →
    m.Unmoved t ∧ (t.kind ≠ .synchronous ∧ t.pc = m.cpu.pc ∨ isSvc t = true ∧ t.pc = m.cpu.pc + 4)

def Possible (m : Machine) : Event → Prop
  | .trap t => m.PossibleTrap t
  | _ => True

end Machine

-- Pieces of runs on given inputs.
def flat : AddressSpaces := ⟨fun _ _ => true, fun _ _ => true, 0⟩

def coldCpu : Cpu := ⟨fun _ => 0, 0, 0, 0, 0x10000, 0, 0, 0, 0, fun _ => 0⟩

def registers (nr : UInt64) (args : List UInt64) : Fin 31 → UInt64 := fun i =>
  if i.val = 8 then nr else args.getD i.val 0

def Trap.svc (x : Fin 31 → UInt64) (pc : UInt64) : Trap :=
  ⟨.synchronous, x, pc + 4, 0, userStackTop, fun _ => 0, ecSvc64 <<< (26 : UInt64), 0, ⟨0, false⟩⟩

def Trap.fault (pc : UInt64) : Trap :=
  ⟨.synchronous, fun _ => 0, pc, 0, userStackTop, fun _ => 0, ecDabtLowerEl <<< (26 : UInt64), 0, ⟨0, false⟩⟩

def Trap.tick (x : Fin 31 → UInt64) (pc : UInt64) : Trap :=
  ⟨.irq, x, pc, 0, userStackTop, fun _ => 0, 0, 0, ⟨timerIrq, false⟩⟩

def Event.spawnAt (root : UInt64) (has_root : root ≠ 0) : Event :=
  .spawn ⟨[], root, 0, userCodeVa, userStackTop, has_root⟩

theorem one_root : (1 : UInt64) ≠ 0 := by decide

theorem two_root : (2 : UInt64) ≠ 0 := by decide

def svcVa : UInt64 := userCodeVa + 8

def Event.buildAt (root : UInt64) : Event := .build root (fun _ => 0) fun va => decide (va = svcVa)

namespace Machine

def again (m : Machine) : Trap :=
  { Trap.svc m.cpu.x m.cpu.pc with spEl0 := m.cpu.spEl0, space := m.mem m.kernel.ttbr0 }

def OffSvc (m : Machine) : Event → Prop
  | .trap t =>
      (isSvc t = true → m.text m.kernel.ttbr0 (t.pc - 4) = true) ∧ m.text m.kernel.ttbr0 m.cpu.pc = false
  | _ => True

instance (m : Machine) : DecidablePred m.OffSvc
  | .trap t => inferInstanceAs (Decidable ((isSvc t = true → _) ∧ _))
  | .build .. | .spawn _ | .arm | .drop _ | .dropUser _ | .unmask | .el1 _ | .enter _ => .isTrue trivial

theorem off_svc_possible (m : Machine) (event : Event) (off : m.OffSvc event) : m.Possible event := by
  cases event with
  | trap t =>
      refine ⟨off.1, fun on => ?_⟩
      rw [off.2] at on
      cases on
  | _ => trivial

theorem again_possible (m : Machine) (on : m.text m.kernel.ttbr0 m.cpu.pc = true) : m.Possible (.trap m.again) := by
  have call : isSvc m.again = true := by
    simp only [isSvc, again, Trap.svc, true_and, decide_eq_true_eq]
    decide
  have back : m.again.pc - 4 = m.cpu.pc := UInt64.add_sub_cancel _ _
  exact ⟨fun _ => by rw [back]; exact on, fun _ => ⟨⟨rfl, rfl, rfl⟩, .inr ⟨call, rfl⟩⟩⟩

end Machine

end Opal
