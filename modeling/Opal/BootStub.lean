import Opal.Placement
import Opal.Straight
import Mathlib.Data.Fin.Basic

set_option autoImplicit false

namespace Opal

namespace Boot

open Mmu

inductive SysReg where
  | vbarEl1
  | vbarEl2
  | hcrEl2
  | cnthctlEl2
  | cntvoffEl2
  | spsrEl2
  | elrEl2
  | parEl1
  deriving DecidableEq

inductive Label where
  | imageStart
  | start
  | park
  | core0
  | el1Entry
  | bssClear
  | bssDone
  | canaryDead
  | canaryOk
  | halt
  deriving DecidableEq

inductive Symbol where
  | imageStart
  | kernelVaBase
  | vectors
  | stackTop
  | bssStart
  | bssEnd
  | opalBuildTables
  | opalMmuEnable
  | mmuCanary
  | startRust
  deriving DecidableEq

-- The instructions the stub is made of. A word is data of the header.
inductive Instr where
  | word (value : Nat)
  | b (target : Label)
  | bNe (target : Label)
  | bEq (target : Label)
  | cbz (s : Fin 31) (target : Label)
  | tbnz (s : Fin 31) (bit : Nat) (target : Label)
  | br (s : Fin 31)
  | blr (s : Fin 31)
  | eret
  | wfe
  | isb
  | movImm (d : Fin 31) (value : Nat)
  | movk (d : Fin 31) (value shift : Nat)
  | mov (d s : Fin 31)
  | movZr (d : Fin 31)
  | movFromSp (d : Fin 31)
  | movToSp (s : Fin 31)
  | add (d n m : Fin 31)
  | sub (d n m : Fin 31)
  | and (d n m : Fin 31)
  | andImm (d n : Fin 31) (mask : Nat)
  | lsr (d n : Fin 31) (shift : Nat)
  | cmp (n m : Fin 31)
  | cmpImm (n : Fin 31) (value : Nat)
  | adr (d : Fin 31) (target : Label)
  | ldrPool (d : Fin 31) (symbol : Symbol)
  | ldr (d n : Fin 31)
  | strW (s n : Fin 31)
  | stpZr (n : Fin 31)
  | mrsMpidr (d : Fin 31)
  | mrsCurrentEl (d : Fin 31)
  | mrs (d : Fin 31) (reg : SysReg)
  | msr (reg : SysReg) (s : Fin 31)
  | msrZr (reg : SysReg)
  | atS1e1r (n : Fin 31)
  deriving DecidableEq

def block : Label → List Instr
  | .imageStart =>
      [ .b .start, .word 0, .word 0, .word 0, .word 0, .word 0, .word 0xA, .word 0, .word 0, .word 0, .word 0, .word 0,
        .word 0, .word 0, .word 0x644d5241, .word 0 ]
  | .start => [ .mrsMpidr 1, .movImm 2 0xffffff, .movk 2 0xff 32, .and 1 1 2, .cbz 1 .core0 ]
  | .park => [ .wfe, .b .park ]
  | .core0 =>
      [ .mov 19 0, .adr 22 .imageStart, .ldrPool 23 .imageStart, .sub 23 22 23,
        .movImm 3 (0xFFFF <<< 48), .ldrPool 4 .kernelVaBase, .cmp 3 4, .bNe .halt, .mov 21 3,
        .mrsCurrentEl 1, .lsr 1 1 2, .andImm 1 1 3, .cmpImm 1 2, .bNe .el1Entry,
        .ldrPool 9 .vectors, .sub 9 9 21, .add 9 9 23, .msr .vbarEl2 9,
        .movImm 9 (0x8000 <<< 16), .movk 9 0 0, .msr .hcrEl2 9,
        .movImm 9 1, .msr .cnthctlEl2 9, .msrZr .cntvoffEl2,
        .movImm 9 0x3C5, .msr .spsrEl2 9, .adr 9 .el1Entry, .msr .elrEl2 9, .eret ]
  | .el1Entry =>
      [ .ldrPool 1 .stackTop, .sub 1 1 21, .add 1 1 23, .movToSp 1,
        .ldrPool 1 .bssStart, .sub 1 1 21, .add 1 1 23, .ldrPool 2 .bssEnd, .sub 2 2 21, .add 2 2 23 ]
  | .bssClear => [ .cmp 1 2, .bEq .bssDone, .stpZr 1, .b .bssClear ]
  | .bssDone =>
      [ .ldrPool 9 .opalBuildTables, .sub 9 9 21, .add 9 9 23, .mov 0 23, .blr 9, .mov 20 0,
        .ldrPool 9 .vectors, .sub 9 9 21, .add 9 9 23, .msr .vbarEl1 9, .isb,
        .mov 0 20, .ldrPool 9 .opalMmuEnable, .sub 9 9 21, .add 9 9 23, .blr 9,
        .ldrPool 9 .mmuCanary, .atS1e1r 9, .isb, .mrs 10 .parEl1, .tbnz 10 0 .canaryDead, .ldr 10 9,
        .movImm 11 0x4F4B, .movk 11 0x4D32 16, .movk 11 0x414C 32, .movk 11 0x4F50 48, .cmp 10 11, .bEq .canaryOk ]
  | .canaryDead => [ .movImm 12 (0x0900 <<< 16), .movImm 13 0x3F, .strW 13 12, .b .halt ]
  | .canaryOk =>
      [ .ldrPool 9 .vectors, .msr .vbarEl1 9, .isb,
        .movFromSp 10, .add 10 10 21, .movToSp 10, .movZr 29,
        .mov 0 19, .mov 1 22, .ldrPool 9 .startRust, .br 9 ]
  | .halt => [ .wfe, .b .halt ]

def order : List Label :=
  [ .imageStart, .start, .park, .core0, .el1Entry, .bssClear, .bssDone, .canaryDead, .canaryOk, .halt ]

-- .text.boot without its literal pool, one instruction a word.
def stub : List Instr := order.flatMap block

def place (target : Label) : Nat := ((order.takeWhile (· ≠ target)).flatMap block).length

-- What a Rust routine leaves behind in the registers it need not keep and in the
-- stack below its caller's.
structure Scratch where
  x : Fin 31 → Nat
  zero : Bool
  stack : Nat → Nat

-- What the linker, the loader and the core fix. pool is where a literal lies in
-- the image; the other places are link-time physical addresses. enabled is the
-- instruction of opal_mmu_enable behind the write of SCTLR_EL1 and its isb, and
-- parked the loop that opal_build_tables ends in without a 16 KiB granule.
structure Env where
  layout : Layout
  load : Nat
  pool : Symbol → Nat
  kernelVaBase : Nat
  vectors : Nat
  bssStart : Nat
  bssEnd : Nat
  opalBuildTables : Nat
  parked : Nat
  opalMmuEnable : Nat
  enabled : Nat
  mmuCanary : Nat
  startRust : Nat
  mpidr : Nat
  mmfr0 : Nat
  builder : Scratch
  enabler : Scratch

-- The literal of a symbol: every symbol but the stub's own lies in the high half.
def Env.value (env : Env) : Symbol → Nat
  | .imageStart => linkBase
  | .kernelVaBase => env.kernelVaBase
  | .vectors => kernelBase + env.vectors
  | .stackTop => kernelBase + env.layout.stackTop
  | .bssStart => kernelBase + env.bssStart
  | .bssEnd => kernelBase + env.bssEnd
  | .opalBuildTables => kernelBase + env.opalBuildTables
  | .opalMmuEnable => kernelBase + env.opalMmuEnable
  | .mmuCanary => kernelBase + env.mmuCanary
  | .startRust => kernelBase + env.startRust

def mmuCanaryValue : Nat := 0x4F50414C4D324F4B

-- The core. sp is the stack pointer of EL1, zero the Z flag. root is in both
-- registers once the MMU is on. uart is what the console was sent.
structure Core where
  pc : Nat
  x : Fin 31 → Nat
  sp : Nat
  zero : Bool
  daif : Nat
  el : Nat
  sys : SysReg → Nat
  root : Option Nat
  mem : Memory
  uart : List Nat

def flat : Access := ⟨.device, true, true, true, true, true, true⟩

def translation (root : Option Nat) (mem : Memory) (va : Nat) : Option (Nat × Access) :=
  match root with
  | none => some (va, flat)
  | some root => ((Mmu.opalMmuEnable root mem).hardwareWalk va).translation

-- What is fetched: an instruction of the stub and the address at which the stub
-- is seen from it, or a routine of the kernel.
inductive Fetched where
  | stub (base : Nat) (instr : Instr)
  | opalBuildTables
  | parked
  | opalMmuEnable
  | enabled

namespace Env

variable (env : Env)

def codeAt (pa : Nat) (pc : Nat) : Option Fetched :=
  if pa = loadedAt env.load env.opalBuildTables then some .opalBuildTables
  else if pa = loadedAt env.load env.parked then some .parked
  else if pa = loadedAt env.load env.opalMmuEnable then some .opalMmuEnable
  else if pa = loadedAt env.load env.enabled then some .enabled
  else if env.load ≤ pa ∧ (pa - env.load) % 4 = 0 then
    (Boot.stub[(pa - env.load) / 4]?).map (.stub ((pc + (2 ^ 64 - (pa - env.load))) % 2 ^ 64))
  else none

def fetch (core : Core) : Option Fetched :=
  match translation core.root core.mem core.pc with
  | some (pa, rights) => if rights.el1Execute then env.codeAt pa core.pc else none
  | none => none

-- The stack's words below sp, as a routine has left them.
def scribbled (scratch : Scratch) (sp : Nat) (mem : Memory) : Memory :=
  fun a => if loadedAt env.load env.layout.stackBottom ≤ a ∧ a < sp then scratch.stack a else mem a

-- AAPCS64: x19 to x29 and the stack pointer come back as they went in.
def returned (scratch : Scratch) (core : Core) : Core :=
  { core with
    pc := core.x 30
    x := fun i => if 19 ≤ i.val ∧ i.val ≤ 29 then core.x i else scratch.x i
    zero := scratch.zero
    mem := env.scribbled scratch core.sp core.mem }

end Env

namespace Core

def setX (core : Core) (d : Fin 31) (value : Nat) : Core :=
  { core with x := Function.update core.x d value, pc := core.pc + 4 }

def jump (core : Core) (base : Nat) (target : Label) : Core := { core with pc := base + 4 * place target }

def next (core : Core) : Core := { core with pc := core.pc + 4 }

def setSys (core : Core) (reg : SysReg) (value : Nat) : Core :=
  { core with sys := Function.update core.sys reg value, pc := core.pc + 4 }

end Core

def SysReg.reachable (el : Nat) : SysReg → Bool
  | .vbarEl1 | .parEl1 => true
  | _ => el = 2

def Env.exec (env : Env) : Fetched → Core → Option Core
  | .stub base instr, core =>
      match instr with
      | .word _ => none
      | .b target => some (core.jump base target)
      | .bNe target => some (if core.zero then core.next else core.jump base target)
      | .bEq target => some (if core.zero then core.jump base target else core.next)
      | .cbz s target => some (if core.x s = 0 then core.jump base target else core.next)
      | .tbnz s bit target => some (if core.x s >>> bit % 2 = 1 then core.jump base target else core.next)
      | .br s => some { core with pc := core.x s }
      | .blr s => some { core with pc := core.x s, x := Function.update core.x 30 (core.pc + 4) }
      | .eret =>
          -- To AArch64 at EL1 with its own stack pointer, as SPSR_EL2 and HCR_EL2.RW say.
          if core.el = 2 ∧ core.sys .spsrEl2 % 32 = 5 ∧ core.sys .hcrEl2 >>> 31 % 2 = 1 then
            some { core with pc := core.sys .elrEl2, el := 1, daif := core.sys .spsrEl2 >>> 6 % 16 }
          else none
      | .wfe => some core.next
      | .isb => some core.next
      | .movImm d value => some (core.setX d value)
      | .movk d value shift => some (core.setX d ((core.x d &&& (2 ^ 64 - 1 - 0xFFFF <<< shift)) ||| value <<< shift))
      | .mov d s => some (core.setX d (core.x s))
      | .movZr d => some (core.setX d 0)
      | .movFromSp d => some (core.setX d core.sp)
      | .movToSp s => some { core.next with sp := core.x s }
      | .add d n m => some (core.setX d ((core.x n + core.x m) % 2 ^ 64))
      | .sub d n m => some (core.setX d ((core.x n + (2 ^ 64 - core.x m)) % 2 ^ 64))
      | .and d n m => some (core.setX d (core.x n &&& core.x m))
      | .andImm d n mask => some (core.setX d (core.x n &&& mask))
      | .lsr d n shift => some (core.setX d (core.x n >>> shift))
      | .cmp n m => some { core.next with zero := core.x n = core.x m }
      | .cmpImm n value => some { core.next with zero := core.x n = value }
      | .adr d target => some (core.setX d (base + 4 * place target))
      | .ldrPool d symbol =>
          (translation core.root core.mem (base + env.pool symbol)).map fun found => core.setX d (core.mem found.1)
      | .ldr d n => (translation core.root core.mem (core.x n)).map fun found => core.setX d (core.mem found.1)
      | .strW s n =>
          (translation core.root core.mem (core.x n)).bind fun found =>
            if found.1 = uart0Base then some { core.next with uart := core.uart ++ [core.x s % 2 ^ 32] } else none
      | .stpZr n =>
          (translation core.root core.mem (core.x n)).bind fun found =>
            if found.2.el1Write then
              some { core.setX n ((core.x n + 16) % 2 ^ 64) with
                mem := fun a => if found.1 ≤ a ∧ a < found.1 + 16 then 0 else core.mem a }
            else none
      | .mrsMpidr d => some (core.setX d env.mpidr)
      | .mrsCurrentEl d => some (core.setX d (core.el <<< 2))
      | .mrs d reg => if reg.reachable core.el then some (core.setX d (core.sys reg)) else none
      | .msr reg s => if reg.reachable core.el then some (core.setSys reg (core.x s)) else none
      | .msrZr reg => if reg.reachable core.el then some (core.setSys reg 0) else none
      | .atS1e1r n =>
          some (core.setSys .parEl1 (match translation core.root core.mem (core.x n) with
            | some (pa, _) => pa >>> 12 <<< 12
            | none => 1))
  | .opalBuildTables, core =>
      match Mmu.opalBuildTables env.layout (core.x 0) env.mmfr0 core.mem with
      | some (root, built) =>
          let back := env.returned env.builder { core with mem := built }
          some { back with x := Function.update back.x 0 root }
      -- MMU?G
      | none => some { core with uart := core.uart ++ [0x4D, 0x4D, 0x55, 0x3F, 0x47], pc := loadedAt env.load env.parked }
  | .parked, core => some core
  | .opalMmuEnable, core => some { core with root := some (core.x 0), pc := loadedAt env.load env.enabled }
  | .enabled, core => some (env.returned env.enabler core)

def Env.machine (env : Env) : Straight.Machine Core Fetched where
  fetch := env.fetch
  exec := env.exec

end Boot

end Opal
