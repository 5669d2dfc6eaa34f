import Opal.Sched

set_option autoImplicit false

namespace Opal

def kernelBase : Nat := 0xFFFF000000000000

def userCodeVa : UInt64 := 0x100000

def userStackVa : UInt64 := 0x200000

def granule : UInt64 := 0x4000

def userStackTop : UInt64 := userStackVa + granule

def sysWrite : UInt64 := 1
def sysExit : UInt64 := 2
def sysYield : UInt64 := 3
def sysSend : UInt64 := 4
def sysRecv : UInt64 := 5
def sysRecvblk : UInt64 := 6
def sysSendblk : UInt64 := 7
def sysSleep : UInt64 := 8
def sysExitCode : UInt64 := 9
def sysWait : UInt64 := 10

-- The bytes behind each user root, by virtual address. Two tasks share bytes
-- only where they share a root.
abbrev UserMem : Type := UInt64 → Nat → UInt8

-- What the page tables decide: which low-half bytes EL1 may read and write
-- through a given root, and the root that maps nothing.
structure AddressSpaces where
  readable : UInt64 → Nat → Bool
  writable : UInt64 → Nat → Bool
  emptyRoot : UInt64

inductive ParkCause where
  | nested
  | faultInHandler
  | fatal
  deriving DecidableEq, Repr

-- toMonitor re-enters the monitor loop and never returns.
inductive Outcome where
  | resumed (k : Kernel) (mem : UserMem) (frame : TrapFrame)
  | toMonitor (k : Kernel)
  | parked (cause : ParkCause) (k : Kernel)

def isValidUserRange (bufVa len : Nat) : Bool :=
  if bufVa ≥ kernelBase then false
  else if len = 0 then true
  else if bufVa + len ≥ 2 ^ 64 then false
  else decide (bufVa + len ≤ kernelBase)

namespace AddressSpaces

variable (spaces : AddressSpaces)

-- The byte loops read and write through TTBR0. An address the tables refuse
-- is a data abort taken at EL1, inside the handler.
def readUser (k : Kernel) (mem : UserMem) (va len : Nat) : Option (List UInt8) :=
  if (List.range len).all fun i => spaces.readable k.ttbr0 (va + i) then
    some ((List.range len).map fun i => mem k.ttbr0 (va + i))
  else none

def writeUser (k : Kernel) (mem : UserMem) (va : Nat) (bytes : List UInt8) : Option UserMem :=
  if (List.range bytes.length).all fun i => spaces.writable k.ttbr0 (va + i) then
    some (Function.update mem k.ttbr0 fun a =>
      if va ≤ a ∧ a < va + bytes.length then bytes.getD (a - va) 0 else mem k.ttbr0 a)
  else none

end AddressSpaces

theorem read_user_length (spaces : AddressSpaces) (k : Kernel) (mem : UserMem) (va len : Nat) (msg : List UInt8)
    (read : spaces.readUser k mem va len = some msg) : msg.length = len := by
  unfold AddressSpaces.readUser at read
  split_ifs at read
  cases read
  simp

def ebadf : Int64 := -1
def e2big : Int64 := -7
def efault : Int64 := -14
def einval : Int64 := -22
def enosys : Int64 := -38

def reply (k : Kernel) (mem : UserMem) (frame : TrapFrame) (value : Int64) : Outcome :=
  .resumed k mem (frame.setX 0 value.toUInt64)

def svcWrite (spaces : AddressSpaces) (k : Kernel) (mem : UserMem) (frame : TrapFrame) : Outcome :=
  let fd := frame.x 0
  let bufVa := (frame.x 1).toNat
  let len := (frame.x 2).toNat
  if fd ≠ 1 then reply k mem frame ebadf
  else if len > 256 then reply k mem frame e2big
  else if isValidUserRange bufVa len = false then reply k mem frame efault
  else
    match spaces.readUser k mem bufVa len with
    | none => .parked .faultInHandler k
    | some bytes => .resumed k mem (frame.setX 0 (UInt64.ofNat bytes.length))

def svcYield (k : Kernel) (mem : UserMem) (frame : TrapFrame) : Outcome :=
  let result := if k.currentTid ≠ 0 then k.saveAndSwitch frame else (false, k, frame)
  if result.1 then .resumed result.2.1 mem result.2.2
  else .resumed result.2.1 mem (result.2.2.setX 0 0)

-- send and sendblk share everything but what an error of ipc_send leads to.
def svcSendOr (spaces : AddressSpaces) (k : Kernel) (mem : UserMem) (frame : TrapFrame)
    (refused : Int64 → Outcome) : Outcome :=
  let dstTid := (frame.x 0).toNat
  let bufVa := (frame.x 1).toNat
  let len := min (frame.x 2).toNat msgMax
  if frame.x 2 = 0 then reply k mem frame 0
  else if isValidUserRange bufVa len = false then reply k mem frame efault
  else
    match spaces.readUser k mem bufVa len with
    | none => .parked .faultInHandler k
    | some msg =>
        match k.ipcSend dstTid msg with
        | .ok k => reply k mem frame 0
        | .error e => refused e

def svcSend (spaces : AddressSpaces) (k : Kernel) (mem : UserMem) (frame : TrapFrame) : Outcome :=
  svcSendOr spaces k mem frame fun e => reply k mem frame e

-- recv and recvblk share everything but what an empty mailbox leads to.
def svcRecvOr (spaces : AddressSpaces) (k : Kernel) (mem : UserMem) (frame : TrapFrame)
    (refused : Int64 → Outcome) : Outcome :=
  let bufVa := (frame.x 0).toNat
  let bufLen := min (frame.x 1).toNat msgMax
  if frame.x 1 = 0 then reply k mem frame einval
  else if isValidUserRange bufVa bufLen = false then reply k mem frame efault
  else
    match k.ipcRecv bufLen with
    | .error e => refused e
    | .ok (msg, sender, k) =>
        match spaces.writeUser k mem bufVa msg with
        | none => .parked .faultInHandler k
        | some mem => .resumed k mem ((frame.setX 0 (UInt64.ofNat msg.length)).setX 1 (UInt64.ofNat sender))

def svcRecv (spaces : AddressSpaces) (k : Kernel) (mem : UserMem) (frame : TrapFrame) : Outcome :=
  svcRecvOr spaces k mem frame fun e => reply k mem frame e

-- recvblk, sendblk and wait block with ELR back on the svc, so that the call
-- is made again on wake. When nobody else is Ready the handler puts ELR
-- forward, takes the mark off again, and answers -EAGAIN.
def blockToRetry (k : Kernel) (mem : UserMem) (frame : TrapFrame) (mark unmark : Task → Task) : Outcome :=
  let cur := k.currentTid
  let result := (k.editTask cur mark).blockAndSwitch { frame with elr := frame.elr - 4 }
  if result.1 then .resumed result.2.1 mem result.2.2
  else reply (result.2.1.editTask cur unmark) mem { result.2.2 with elr := result.2.2.elr + 4 } (-Kernel.eagain)

def svcRecvblk (spaces : AddressSpaces) (k : Kernel) (mem : UserMem) (frame : TrapFrame) : Outcome :=
  svcRecvOr spaces k mem frame fun _ => blockToRetry k mem frame id id

def svcSendblk (spaces : AddressSpaces) (k : Kernel) (mem : UserMem) (frame : TrapFrame) : Outcome :=
  svcSendOr spaces k mem frame fun e =>
    if e = Kernel.eagain then
      if k.currentTid = 0 then reply k mem frame e
      else
        blockToRetry k mem frame (fun t => { t with blockedSendDst := (frame.x 0).toNat })
          (fun t => { t with blockedSendDst := 0 })
    else reply k mem frame e

-- now.checked_add(ticks).unwrap_or(u64::MAX)
def deadline (now ticks : UInt64) : UInt64 :=
  if now.toNat + ticks.toNat < 2 ^ 64 then now + ticks else UInt64.ofNat (2 ^ 64 - 1)

-- sleep does not go back to its svc: its answer is in the frame it saves.
def svcSleep (k : Kernel) (mem : UserMem) (frame : TrapFrame) : Outcome :=
  let ticks := frame.x 0
  if ticks = 0 then reply k mem frame 0
  else
    let cur := k.currentTid
    if cur = 0 then reply k mem frame einval
    else
      let k := k.editTask cur fun t => { t with wakeTick := deadline k.ticks ticks }
      let result := k.blockAndSwitch (frame.setX 0 0)
      if result.1 then .resumed result.2.1 mem result.2.2
      else .resumed (result.2.1.editTask cur fun t => { t with wakeTick := 0 }) mem result.2.2

def condemnLowHalf (spaces : AddressSpaces) (k : Kernel) : Kernel := { k with ttbr0 := spaces.emptyRoot }

-- The part of on_el0_return before its command loop.
def onEl0Return (spaces : AddressSpaces) (k : Kernel) : Kernel := { condemnLowHalf spaces k with preempt := false }

def returnToMonitor (spaces : AddressSpaces) (k : Kernel) : Kernel :=
  onEl0Return spaces (condemnLowHalf spaces { k with preempt := false })

def Kernel.afterExit (k : Kernel) (code : Int64) : Kernel :=
  (k.editTask k.currentTid (exitWith code)).wakeWaiters k.currentTid

def svcExit (spaces : AddressSpaces) (k : Kernel) (mem : UserMem) (frame : TrapFrame) : Outcome :=
  let cur := k.currentTid
  let code := (frame.x 0).toInt64
  let result := if cur ≠ 0 then (k.afterExit code).saveAndSwitch frame else (false, k, frame)
  if result.1 then .resumed result.2.1 mem result.2.2
  else .toMonitor (onEl0Return spaces (condemnLowHalf spaces { result.2.1 with preempt := false }))

def svcWait (k : Kernel) (mem : UserMem) (frame : TrapFrame) : Outcome :=
  let childTid := (frame.x 0).toNat
  match k.tryWait childTid with
  | .ok code => reply k mem frame code
  | .error e =>
      if e = Kernel.eagain then
        blockToRetry k mem frame (fun t => { t with waitingOn := childTid }) (fun t => { t with waitingOn := 0 })
      else reply k mem frame e

def handleSvcFromEl0 (spaces : AddressSpaces) (k : Kernel) (mem : UserMem) (frame : TrapFrame) : Outcome :=
  let nr := frame.x 8
  if nr = sysWrite then svcWrite spaces k mem frame
  else if nr = sysYield then svcYield k mem frame
  else if nr = sysSend then svcSend spaces k mem frame
  else if nr = sysRecv then svcRecv spaces k mem frame
  else if nr = sysRecvblk then svcRecvblk spaces k mem frame
  else if nr = sysSendblk then svcSendblk spaces k mem frame
  else if nr = sysSleep then svcSleep k mem frame
  else if nr = sysExit ∨ nr = sysExitCode then svcExit spaces k mem frame
  else if nr = sysWait then svcWait k mem frame
  else reply k mem frame enosys

end Opal
