import Opal.TrapFrame
import Mathlib.Data.Fintype.Basic
import Mathlib.Tactic.FinCases

set_option autoImplicit false

namespace Opal

-- The core as the stub's instructions see it. stack is the kernel stack's
-- memory, one 64-bit word an address.
structure Cpu where
  x : Fin 31 → UInt64
  pc : UInt64
  pstate : UInt64
  spEl0 : UInt64
  spEl1 : UInt64
  elrEl1 : UInt64
  spsrEl1 : UInt64
  esrEl1 : UInt64
  farEl1 : UInt64
  stack : UInt64 → UInt64

structure StubState where
  cpu : Cpu
  pending : UInt64
  savedGp0 : UInt64
  savedGp1 : UInt64

inductive SysReg where
  | elrEl1
  | spsrEl1
  | esrEl1
  | farEl1

inductive Static where
  | pendingKstackSp
  | savedGp

-- The instructions the stub is made of. adr is the adrp and add pair. An
-- access by base register names the static it is meant for.
inductive Instr where
  | subSp (n : UInt64)
  | addSp (n : UInt64)
  | addFromSp (d : Fin 31) (n : UInt64)
  | movFromSp (d : Fin 31)
  | movToSp (s : Fin 31)
  | movImm (d : Fin 31) (value : UInt64)
  | stp (a b : Fin 31) (offset : UInt64)
  | ldp (a b : Fin 31) (offset : UInt64)
  | ldr (a : Fin 31) (offset : UInt64)
  | mrs (d : Fin 31) (reg : SysReg)
  | msr (reg : SysReg) (s : Fin 31)
  | adr (d : Fin 31) (static : Static)
  | ldrStatic (d base : Fin 31) (offset : UInt64) (static : Static)
  | strStatic (s base : Fin 31) (offset : UInt64) (static : Static)
  | strZeroStatic (base : Fin 31) (static : Static)
  | cbz (s : Fin 31) (skip : Nat)
  | eret

namespace Cpu

def setX (cpu : Cpu) (d : Fin 31) (value : UInt64) : Cpu := { cpu with x := Function.update cpu.x d value }

def load (cpu : Cpu) (offset : UInt64) : UInt64 := cpu.stack (cpu.spEl1 + offset)

def store (cpu : Cpu) (offset value : UInt64) : Cpu :=
  { cpu with stack := Function.update cpu.stack (cpu.spEl1 + offset) value }

def readSys (cpu : Cpu) : SysReg → UInt64
  | .elrEl1 => cpu.elrEl1
  | .spsrEl1 => cpu.spsrEl1
  | .esrEl1 => cpu.esrEl1
  | .farEl1 => cpu.farEl1

def writeSys (cpu : Cpu) (value : UInt64) : SysReg → Cpu
  | .elrEl1 => { cpu with elrEl1 := value }
  | .spsrEl1 => { cpu with spsrEl1 := value }
  | .esrEl1 => { cpu with esrEl1 := value }
  | .farEl1 => { cpu with farEl1 := value }

end Cpu

namespace StubState

def readStatic (s : StubState) (offset : UInt64) : Static → UInt64
  | .pendingKstackSp => s.pending
  | .savedGp => if offset = 0 then s.savedGp0 else s.savedGp1

def writeStatic (s : StubState) (offset value : UInt64) : Static → StubState
  | .pendingKstackSp => { s with pending := value }
  | .savedGp => if offset = 0 then { s with savedGp0 := value } else { s with savedGp1 := value }

-- The static is reached only by its address. Any other base reaches what lies
-- there.
def loadFrom (s : StubState) (address : Static → UInt64) (base : Fin 31) (offset : UInt64) (static : Static) : UInt64 :=
  if s.cpu.x base = address static then s.readStatic offset static else s.cpu.stack (s.cpu.x base + offset)

def storeTo (s : StubState) (address : Static → UInt64) (base : Fin 31) (offset value : UInt64) (static : Static) : StubState :=
  if s.cpu.x base = address static then s.writeStatic offset value static
  else { s with cpu := { s.cpu with stack := Function.update s.cpu.stack (s.cpu.x base + offset) value } }

end StubState

section
variable (address : Static → UInt64)

def step (s : StubState) : Instr → StubState
  | .subSp n => { s with cpu := { s.cpu with spEl1 := s.cpu.spEl1 - n } }
  | .addSp n => { s with cpu := { s.cpu with spEl1 := s.cpu.spEl1 + n } }
  | .addFromSp d n => { s with cpu := s.cpu.setX d (s.cpu.spEl1 + n) }
  | .movFromSp d => { s with cpu := s.cpu.setX d s.cpu.spEl1 }
  | .movToSp r => { s with cpu := { s.cpu with spEl1 := s.cpu.x r } }
  | .movImm d value => { s with cpu := s.cpu.setX d value }
  | .stp a b offset => { s with cpu := (s.cpu.store offset (s.cpu.x a)).store (offset + 8) (s.cpu.x b) }
  | .ldp a b offset => { s with cpu := (s.cpu.setX a (s.cpu.load offset)).setX b (s.cpu.load (offset + 8)) }
  | .ldr a offset => { s with cpu := s.cpu.setX a (s.cpu.load offset) }
  | .mrs d reg => { s with cpu := s.cpu.setX d (s.cpu.readSys reg) }
  | .msr reg r => { s with cpu := s.cpu.writeSys (s.cpu.x r) reg }
  | .adr d static => { s with cpu := s.cpu.setX d (address static) }
  | .ldrStatic d base offset static => { s with cpu := s.cpu.setX d (s.loadFrom address base offset static) }
  | .strStatic r base offset static => s.storeTo address base offset (s.cpu.x r) static
  | .strZeroStatic base static => s.storeTo address base 0 0 static
  | .cbz _ _ => s
  | .eret => { s with cpu := { s.cpu with pc := s.cpu.elrEl1, pstate := s.cpu.spsrEl1 } }

-- The first argument counts the instructions a taken branch still jumps over.
def runFrom : Nat → List Instr → StubState → StubState
  | _, [], s => s
  | n + 1, _ :: rest, s => runFrom n rest s
  | 0, .cbz r skip :: rest, s => runFrom (if s.cpu.x r = 0 then skip else 0) rest s
  | 0, instr :: rest, s => runFrom 0 rest (step address s instr)

theorem run_stash (rest : List Instr) (s : StubState) :
    runFrom address 0 (.adr 2 .savedGp :: .strStatic 0 2 0 .savedGp :: .strStatic 1 2 8 .savedGp :: rest) s =
      runFrom address 0 rest
        { s with cpu := s.cpu.setX 2 (address .savedGp), savedGp0 := s.cpu.x 0, savedGp1 := s.cpu.x 1 } := by
  simp [runFrom, step, StubState.storeTo, StubState.writeStatic, Cpu.setX]

end

-- VECTOR_ENTRY up to its bl: kind and source are the macro's arguments.
def vectorEntry (kind source : UInt64) : List Instr :=
  [ .subSp 288,
    .stp 0 1 0, .stp 2 3 16, .stp 4 5 32, .stp 6 7 48, .stp 8 9 64, .stp 10 11 80, .stp 12 13 96, .stp 14 15 112,
    .stp 16 17 128, .stp 18 19 144, .stp 20 21 160, .stp 22 23 176, .stp 24 25 192, .stp 26 27 208, .stp 28 29 224,
    .addFromSp 0 288, .stp 30 0 240,
    .mrs 0 .elrEl1, .mrs 1 .spsrEl1, .stp 0 1 256,
    .mrs 0 .esrEl1, .mrs 1 .farEl1, .stp 0 1 272,
    .movFromSp 0, .movImm 1 kind, .movImm 2 source ]

def vectorsRestore : List Instr :=
  [ .ldp 0 1 256, .msr .elrEl1 0, .msr .spsrEl1 1,
    .ldp 2 3 16, .ldp 4 5 32, .ldp 6 7 48, .ldp 8 9 64, .ldp 10 11 80, .ldp 12 13 96, .ldp 14 15 112,
    .ldp 16 17 128, .ldp 18 19 144, .ldp 20 21 160, .ldp 22 23 176, .ldp 24 25 192, .ldp 26 27 208, .ldp 28 29 224,
    .ldr 30 240,
    .ldr 0 0, .ldr 1 8,
    .adr 2 .savedGp, .strStatic 0 2 0 .savedGp, .strStatic 1 2 8 .savedGp,
    .ldr 2 16,
    .addSp 288,
    .adr 0 .pendingKstackSp, .ldrStatic 0 0 0 .pendingKstackSp,
    .cbz 0 3,
    .movToSp 0, .adr 1 .pendingKstackSp, .strZeroStatic 1 .pendingKstackSp,
    .adr 0 .savedGp, .ldrStatic 1 0 8 .savedGp, .ldrStatic 0 0 0 .savedGp,
    .eret ]

def frameAt (stack : UInt64 → UInt64) (base : UInt64) : TrapFrame where
  x := fun i => stack (base + UInt64.ofNat (8 * i.val))
  sp := stack (base + 248)
  elr := stack (base + 256)
  spsr := stack (base + 264)
  esr := stack (base + 272)
  far := stack (base + 280)

def TrapFrame.word (frame : TrapFrame) (offset : UInt64) : Option UInt64 :=
  if low : offset.toNat / 8 < 31 then if offset.toNat % 8 = 0 then some (frame.x ⟨offset.toNat / 8, low⟩) else none
  else if offset = 248 then some frame.sp
  else if offset = 256 then some frame.elr
  else if offset = 264 then some frame.spsr
  else if offset = 272 then some frame.esr
  else if offset = 280 then some frame.far
  else none

def putFrame (stack : UInt64 → UInt64) (base : UInt64) (frame : TrapFrame) : UInt64 → UInt64 :=
  fun a => (frame.word (a - base)).getD (stack a)

theorem word_x (frame : TrapFrame) (i : Fin 31) : frame.word (UInt64.ofNat (8 * i.val)) = some (frame.x i) := by
  have offset : (UInt64.ofNat (8 * i.val)).toNat = 8 * i.val := by
    rw [UInt64.toNat_ofNat', Nat.mod_eq_of_lt]
    omega
  have low : 8 * i.val / 8 < 31 := by omega
  have index : (⟨8 * i.val / 8, low⟩ : Fin 31) = i := by
    apply Fin.ext
    exact Nat.mul_div_cancel_left i.val (by decide)
  simp only [TrapFrame.word, offset, low, dite_true, index, Nat.mul_mod_right, if_true]

theorem frame_at_put_frame (stack : UInt64 → UInt64) (base : UInt64) (frame : TrapFrame) :
    frameAt (putFrame stack base frame) base = frame := by
  have back : ∀ offset : UInt64, base + offset - base = offset := fun offset => by
    rw [UInt64.add_comm, UInt64.add_sub_cancel]
  apply TrapFrame.ext
  · funext i
    simp only [frameAt, putFrame, back, word_x, Option.getD_some]
  all_goals
    simp only [frameAt, putFrame, back]
    rfl

section
variable (address : Static → UInt64)

theorem vector_entry_frame (s : StubState) (kind source : UInt64) :
    let after := (runFrom address 0 (vectorEntry kind source) s).cpu
    frameAt after.stack after.spEl1 =
      ⟨s.cpu.x, s.cpu.spEl1, s.cpu.elrEl1, s.cpu.spsrEl1, s.cpu.esrEl1, s.cpu.farEl1⟩ := by
  intro after
  simp only [after, vectorEntry, runFrom, step, Cpu.setX, Cpu.store, Cpu.readSys, frameAt, TrapFrame.mk.injEq]
  refine ⟨?_, ?_⟩
  · funext i
    fin_cases i <;> simp
  · simp

theorem store_to_keeps_sp_el0 (s : StubState) (base : Fin 31) (offset value : UInt64) (static : Static) :
    (s.storeTo address base offset value static).cpu.spEl0 = s.cpu.spEl0 := by
  by_cases there : s.cpu.x base = address static
  · rw [StubState.storeTo, if_pos there]
    cases static with
    | pendingKstackSp => rfl
    | savedGp =>
        by_cases first : offset = 0
        · rw [StubState.writeStatic, if_pos first]
        · rw [StubState.writeStatic, if_neg first]
  · rw [StubState.storeTo, if_neg there]

theorem step_keeps_sp_el0 (s : StubState) (instr : Instr) : (step address s instr).cpu.spEl0 = s.cpu.spEl0 := by
  cases instr with
  | msr reg r => cases reg <;> rfl
  | strStatic r base offset static => exact store_to_keeps_sp_el0 address s base offset _ static
  | strZeroStatic base static => exact store_to_keeps_sp_el0 address s base 0 0 static
  | _ => rfl

-- No instruction of the stub names SP_EL0.
theorem run_keeps_sp_el0 (skip : Nat) (instrs : List Instr) (s : StubState) :
    (runFrom address skip instrs s).cpu.spEl0 = s.cpu.spEl0 := by
  induction instrs generalizing skip s with
  | nil => cases skip <;> rfl
  | cons instr rest ih =>
      cases skip with
      | succ n => exact ih n s
      | zero =>
          cases instr with
          | cbz r n => exact ih _ s
          | _ => exact (ih 0 _).trans (step_keeps_sp_el0 address s _)

theorem vector_entry_sp (s : StubState) (kind source : UInt64) :
    (runFrom address 0 (vectorEntry kind source) s).cpu.spEl1 = s.cpu.spEl1 - 288 := by
  simp only [vectorEntry, runFrom, step, Cpu.setX, Cpu.store]

theorem vector_entry_arguments (s : StubState) (kind source : UInt64) :
    (runFrom address 0 (vectorEntry kind source) s).cpu.x 1 = kind ∧
      (runFrom address 0 (vectorEntry kind source) s).cpu.x 2 = source := by
  simp [vectorEntry, runFrom, step, Cpu.setX, Cpu.store]

theorem run_peek (rest : List Instr) (s : StubState) :
    runFrom address 0 (.adr 0 .pendingKstackSp :: .ldrStatic 0 0 0 .pendingKstackSp :: rest) s =
      runFrom address 0 rest { s with cpu := s.cpu.setX 0 s.pending } := by
  simp [runFrom, step, StubState.loadFrom, StubState.readStatic, Cpu.setX]

theorem run_clear (rest : List Instr) (s : StubState) :
    runFrom address 0 (.adr 1 .pendingKstackSp :: .strZeroStatic 1 .pendingKstackSp :: rest) s =
      runFrom address 0 rest { s with cpu := s.cpu.setX 1 (address .pendingKstackSp), pending := 0 } := by
  simp [runFrom, step, StubState.storeTo, StubState.writeStatic, Cpu.setX]

theorem run_unstash (rest : List Instr) (s : StubState) :
    runFrom address 0 (.adr 0 .savedGp :: .ldrStatic 1 0 8 .savedGp :: .ldrStatic 0 0 0 .savedGp :: rest) s =
      runFrom address 0 rest
        { s with cpu := ((s.cpu.setX 0 (address .savedGp)).setX 1 s.savedGp1).setX 0 s.savedGp0 } := by
  simp [runFrom, step, StubState.loadFrom, StubState.readStatic, Cpu.setX]

theorem vectors_restore_x (s : StubState) :
    (runFrom address 0 vectorsRestore s).cpu.x = (frameAt s.cpu.stack s.cpu.spEl1).x := by
  funext i
  by_cases stay : s.pending = 0
  all_goals
    simp only [vectorsRestore, ↓run_stash, ↓run_peek, ↓run_clear, ↓run_unstash, runFrom, step, Cpu.setX, Cpu.load, Cpu.writeSys, frameAt,
      Function.update_self, stay, if_true, if_false]
    fin_cases i <;> simp

-- Where the restore sequence leaves the core: at the frame's ELR and SPSR, on
-- the pending kernel stack if there is one and else just above the frame.
theorem vectors_restore_core (s : StubState) :
    let after := runFrom address 0 vectorsRestore s
    let frame := frameAt s.cpu.stack s.cpu.spEl1
    after.cpu.pc = frame.elr ∧ after.cpu.pstate = frame.spsr ∧
      after.cpu.spEl1 = (if s.pending = 0 then s.cpu.spEl1 + 288 else s.pending) ∧ after.pending = 0 := by
  by_cases stay : s.pending = 0
  all_goals
    simp only [vectorsRestore, ↓run_stash, ↓run_peek, ↓run_clear, ↓run_unstash, runFrom, step, Cpu.setX, Cpu.load, Cpu.writeSys, frameAt,
      Function.update_self, stay, if_true, if_false]
    simp

theorem vectors_restore_spsr (s : StubState) :
    (runFrom address 0 vectorsRestore s).cpu.spsrEl1 = (frameAt s.cpu.stack s.cpu.spEl1).spsr := by
  by_cases stay : s.pending = 0
  all_goals
    simp only [vectorsRestore, ↓run_stash, ↓run_peek, ↓run_clear, ↓run_unstash, runFrom, step, Cpu.setX, Cpu.load,
      Cpu.writeSys, frameAt, Function.update_self, stay, if_true, if_false]
    simp

end

-- What the hardware does on an exception to EL1: PC and PSTATE go to ELR and
-- SPSR, the syndrome is latched, and the core stands masked on the slot.
def StubState.taken (s : StubState) (slot masked esr far : UInt64) : StubState :=
  { s with
    cpu :=
      { s.cpu with
        pc := slot, pstate := masked, elrEl1 := s.cpu.pc, spsrEl1 := s.cpu.pstate, esrEl1 := esr, farEl1 := far } }

-- The core when the dispatcher returns to the stub: a call may clobber
-- everything but the stack pointer, and it leaves this frame.
def StubState.dispatched (entry clobbered : StubState) (frame : TrapFrame) : StubState :=
  { clobbered with
    cpu :=
      { clobbered.cpu with
        spEl1 := entry.cpu.spEl1
        stack := putFrame clobbered.cpu.stack entry.cpu.spEl1 frame } }

section
variable (address : Static → UInt64)

def StubState.enters (s : StubState) (kind source slot masked esr far : UInt64) : StubState :=
  runFrom address 0 (vectorEntry kind source) (s.taken slot masked esr far)

def StubState.leaves (entry clobbered : StubState) (frame : TrapFrame) : StubState :=
  runFrom address 0 vectorsRestore (entry.dispatched clobbered frame)

theorem enters_frame (before : StubState) (kind source slot masked esr far : UInt64) :
    frameAt (before.enters address kind source slot masked esr far).cpu.stack
      (before.enters address kind source slot masked esr far).cpu.spEl1 =
        ⟨before.cpu.x, before.cpu.spEl1, before.cpu.pc, before.cpu.pstate, esr, far⟩ := by
  unfold StubState.enters
  exact vector_entry_frame address (before.taken slot masked esr far) kind source

theorem enters_sp (before : StubState) (kind source slot masked esr far : UInt64) :
    (before.enters address kind source slot masked esr far).cpu.spEl1 + 288 = before.cpu.spEl1 := by
  unfold StubState.enters
  rw [vector_entry_sp, UInt64.sub_add_cancel]
  rfl

theorem leaves_at (entry clobbered : StubState) (frame : TrapFrame) :
    (entry.leaves address clobbered frame).cpu.x = frame.x ∧
      (entry.leaves address clobbered frame).cpu.pc = frame.elr ∧
      (entry.leaves address clobbered frame).cpu.pstate = frame.spsr ∧
      (entry.leaves address clobbered frame).cpu.spEl1 =
        (if clobbered.pending = 0 then entry.cpu.spEl1 + 288 else clobbered.pending) ∧
      (entry.leaves address clobbered frame).pending = 0 := by
  have there : frameAt (entry.dispatched clobbered frame).cpu.stack (entry.dispatched clobbered frame).cpu.spEl1 = frame :=
    frame_at_put_frame clobbered.cpu.stack entry.cpu.spEl1 frame
  have x := vectors_restore_x address (entry.dispatched clobbered frame)
  obtain ⟨pc, pstate, sp, cleared⟩ := vectors_restore_core address (entry.dispatched clobbered frame)
  rw [there] at x pc pstate
  unfold StubState.leaves
  exact ⟨x, pc, pstate, sp, cleared⟩

-- Whatever the dispatcher does to the frame, the return loads the frame. Where
-- it does nothing to it and leaves no stack pending, the interrupted program
-- goes on as it was.
theorem exception_return (before clobbered : StubState) (kind source slot masked esr far : UInt64) (frame : TrapFrame) :
    let entry := before.enters address kind source slot masked esr far
    let after := entry.leaves address clobbered frame
    let same := entry.leaves address { clobbered with pending := 0 } (frameAt entry.cpu.stack entry.cpu.spEl1)
    (after.cpu.x = frame.x ∧ after.cpu.pc = frame.elr ∧ after.cpu.pstate = frame.spsr ∧
      after.cpu.spEl1 = (if clobbered.pending = 0 then before.cpu.spEl1 else clobbered.pending) ∧ after.pending = 0) ∧
    (same.cpu.x = before.cpu.x ∧ same.cpu.spEl1 = before.cpu.spEl1 ∧ same.cpu.pc = before.cpu.pc ∧
      same.cpu.pstate = before.cpu.pstate) := by
  have pushed := enters_frame address before kind source slot masked esr far
  have popped := enters_sp address before kind source slot masked esr far
  dsimp only
  generalize before.enters address kind source slot masked esr far = entry at pushed popped ⊢
  rw [pushed]
  have changed := leaves_at address entry clobbered frame
  obtain ⟨x, pc, pstate, sp, -⟩ := leaves_at address entry { clobbered with pending := 0 }
    ⟨before.cpu.x, before.cpu.spEl1, before.cpu.pc, before.cpu.pstate, esr, far⟩
  rw [popped] at changed sp
  exact ⟨changed, x, sp, pc, pstate⟩

end

end Opal
