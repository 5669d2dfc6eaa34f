import Opal.Machine

set_option autoImplicit false

namespace Opal

instance neZeroSlots : NeZero 2 := ⟨Nat.succ_ne_zero 1⟩

def ascii (text : String) : List UInt8 := text.toList.map fun c => c.toNat.toUInt8

-- code says where the svc instructions are.
structure Program where
  image : Nat → UInt8
  code : UInt64 → Bool

-- The roots of TASK_MEM_A and TASK_MEM_B, the tops of KSTACK_A and KSTACK_B,
-- and the root of USER_TABLES.
structure UserStatics where
  taskMem : Fin 2 → UInt64
  kstackTop : Fin 2 → UInt64
  userTables : UInt64
  mem_apart : taskMem 0 ≠ taskMem 1
  tables_apart : ∀ slot, taskMem slot ≠ userTables
  stacks_apart : kstackTop 0 ≠ kstackTop 1
  mem_somewhere : ∀ slot, taskMem slot ≠ 0

structure Demo where
  nameA : List UInt8
  nameB : List UInt8
  preempts : Bool
  unmasks : Bool

def dropToEl0Scheduled : Demo := ⟨ascii "A", ascii "B", false, false⟩
def dropToEl0Preempt : Demo := ⟨ascii "preA", ascii "preB", true, true⟩
def dropToEl0Ipc : Demo := ⟨ascii "ipcA", ascii "ipcB", false, false⟩
def dropToEl0Blkipc : Demo := ⟨ascii "blkA", ascii "blkB", false, false⟩
def dropToEl0Sendblk : Demo := ⟨ascii "sdkA", ascii "sdkB", false, false⟩
def dropToEl0Faultkill : Demo := ⟨ascii "ftkA", ascii "ftkB", false, false⟩
def dropToEl0Sleep : Demo := ⟨ascii "slpA", ascii "slpB", true, true⟩
def dropToEl0Wait : Demo := ⟨ascii "waiA", ascii "waiB", false, false⟩

-- ticks is tick and ticktest.
inductive Command where
  | el0 (program : Program)
  | scheduled (demo : Demo) (a b : Program)
  | ticks

def UserStatics.spawnArgs (statics : UserStatics) (slot : Fin 2) (name : List UInt8) : Kernel.SpawnArgs where
  name := name
  ttbr0Pa := statics.taskMem slot
  kstackTop := statics.kstackTop slot
  entry := userCodeVa
  sp := userStackTop
  has_root := statics.mem_somewhere slot

def Command.script (statics : UserStatics) : Command → List Event
  | .el0 program => [.build statics.userTables program.image program.code, .dropUser statics.userTables]
  | .scheduled demo a b =>
      [ .build (statics.taskMem 0) a.image a.code, .build (statics.taskMem 1) b.image b.code,
        .spawn (statics.spawnArgs 0 demo.nameA), .spawn (statics.spawnArgs 1 demo.nameB) ] ++
      (if demo.preempts then [.arm] else []) ++ [.drop demo.unmasks]
  | .ticks => [.unmask]

-- todo is what the running command has still to do, spawned whether its spawns
-- have all found a slot.
structure Console where
  machine : Machine
  todo : List Event
  spawned : Bool

inductive Input where
  | command (c : Command)
  | proceed
  | el1 (t : Trap)
  | enter (residue : Fin 31 → UInt64)
  | trap (t : Trap)

namespace Console

def boot (spaces : AddressSpaces) (cpu : Cpu) : Console := ⟨Machine.boot spaces cpu, [], true⟩

def accepts (c : Console) : Bool := decide (c.machine.mode = .monitor) && c.todo.isEmpty

section
variable (spaces : AddressSpaces) (address : Static → UInt64) (statics : UserStatics)

-- After its spawns a command gives up unless both have found a slot.
def proceed (c : Console) : Console :=
  match c.todo with
  | [] => c
  | .spawn args :: rest =>
      ⟨c.machine.next spaces address (.spawn args), rest, c.spawned && c.machine.kernel.allocTask.1.isSome⟩
  | .arm :: rest =>
      if c.spawned then { c with machine := c.machine.next spaces address .arm, todo := rest }
      else { c with todo := [] }
  | .drop unmask :: rest =>
      if c.spawned then { c with machine := c.machine.next spaces address (.drop unmask), todo := rest }
      else { c with todo := [] }
  | event :: rest => { c with machine := c.machine.next spaces address event, todo := rest }

def step (c : Console) : Input → Console
  | .command cmd => if c.accepts then { c with todo := cmd.script statics, spawned := true } else c
  | .proceed => if c.machine.mode = .monitor then c.proceed spaces address else c
  | .el1 t => { c with machine := c.machine.next spaces address (.el1 t) }
  | .enter residue => { c with machine := c.machine.next spaces address (.enter residue) }
  | .trap t => { c with machine := c.machine.next spaces address (.trap t) }

end

end Console

end Opal
