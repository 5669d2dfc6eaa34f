import Opal.RingBuffer
import Opal.TrapFrame

set_option autoImplicit false

namespace Opal

def maxTasks : Nat := 8

def msgMax : Nat := 32

inductive TaskState where
  | exited
  | ready
  | running
  | blocked
  deriving DecidableEq, Repr

-- One task control block. A field that names a task uses 0 for nobody, and
-- wakeTick uses 0 for not sleeping.
structure Task where
  saved : TrapFrame
  ttbr0Pa : UInt64
  kstackTop : UInt64
  state : TaskState
  name : Vector UInt8 8
  mailbox : Vector UInt8 msgMax
  mailboxLen : Nat
  mailboxFrom : Nat
  blockedSendDst : Nat
  wakeTick : UInt64
  exitCode : Int64
  waitingOn : Nat

-- The slice copy dst[..n].copy_from_slice(&src[..n]) with n the shorter length.
def copyPrefix {n : Nat} (dst : Vector UInt8 n) (src : List UInt8) : Vector UInt8 n :=
  Vector.ofFn fun i => src.getD i.val dst[i]

theorem take_copy_prefix {n : Nat} (dst : Vector UInt8 n) (src : List UInt8) :
    (copyPrefix dst src).toList.take (min src.length n) = src.take n := by
  apply List.ext_getElem
  · simp
    omega
  · intro i left right
    have short : i < src.length := by
      simp only [List.length_take] at right
      omega
    simp [copyPrefix, List.getElem?_eq_getElem short]

def Task.empty : Task where
  saved := .empty
  ttbr0Pa := 0
  kstackTop := 0
  state := .exited
  name := .replicate 8 0
  mailbox := .replicate msgMax 0
  mailboxLen := 0
  mailboxFrom := 0
  blockedSendDst := 0
  wakeTick := 0
  exitCode := 0
  waitingOn := 0

-- The undelivered message, [] when there is none.
def Task.message (t : Task) : List UInt8 := t.mailbox.toList.take t.mailboxLen

-- What the scheduler did, oldest first. A history no code reads: it records
-- the results that the source's callers drop, and how long the queue then was.
inductive SchedEvent where
  | enqueued (tid : Nat) (accepted : Bool) (count : Nat)
  | dispatched (tid : Nat)
  | vanished (tid : Nat)
  deriving DecidableEq, Repr

-- The kernel's statics that outlive a handler, and TTBR0_EL1.
structure Kernel where
  table : Nat → Task
  currentTid : Nat
  scheduler : RingBuffer Nat maxTasks
  pendingKstackSp : UInt64
  ticks : UInt64
  preempt : Bool
  preempts : UInt64
  ttbr0 : UInt64
  history : List SchedEvent

namespace Kernel

def ready (k : Kernel) : List Nat := k.scheduler.toList

-- Slot 0 is the kernel's own and never scheduled.
def slots : List Nat := List.range' 1 7

def setTask (k : Kernel) (tid : Nat) (t : Task) : Kernel := { k with table := Function.update k.table tid t }

def record (k : Kernel) (event : SchedEvent) : Kernel := { k with history := k.history ++ [event] }

def enqueue (k : Kernel) (tid : Nat) : Kernel :=
  let result := k.scheduler.enqueue tid
  { k with scheduler := result.2, history := k.history ++ [.enqueued tid result.1 result.2.count] }

def task (k : Kernel) (tid : Nat) : Option Task :=
  if tid ≥ maxTasks then none
  else if (k.table tid).state = .exited then none
  else some (k.table tid)

def editTask (k : Kernel) (tid : Nat) (edit : Task → Task) : Kernel :=
  match k.task tid with
  | none => k
  | some t => k.setTask tid (edit t)

def allocTask (k : Kernel) : Option Nat × Kernel :=
  match slots.find? (fun tid => (k.table tid).state = .exited) with
  | none => (none, k)
  | some tid => (some tid, k.setTask tid .empty)

-- The arguments of spawn. Every caller passes the root of a user address
-- space it has just built, which is never physical address 0.
structure SpawnArgs where
  name : List UInt8
  ttbr0Pa : UInt64
  kstackTop : UInt64
  entry : UInt64
  sp : UInt64
  has_root : ttbr0Pa ≠ 0

def SpawnArgs.initial (args : SpawnArgs) : Task :=
  { Task.empty with
    saved := { TrapFrame.empty with elr := args.entry, sp := args.sp, spsr := 0 }
    ttbr0Pa := args.ttbr0Pa
    kstackTop := args.kstackTop
    state := .ready
    name := copyPrefix Task.empty.name args.name }

def spawn (k : Kernel) (args : SpawnArgs) : Option Nat × Kernel :=
  match k.allocTask with
  | (none, k) => (none, k)
  | (some tid, k) => (some tid, (k.setTask tid args.initial).enqueue tid)

-- The wake scans walk the slots in order. At each slot they may change the
-- task and may put it in the ready queue.
def visit (look : Task → Task × Bool) (k : Kernel) (tid : Nat) : Kernel :=
  let seen := look (k.table tid)
  let k := k.setTask tid seen.1
  if seen.2 then k.enqueue tid else k

-- Unification must not run a scan slot by slot.
@[irreducible] def sweep (k : Kernel) (look : Task → Task × Bool) : Kernel := slots.foldl (visit look) k

def wakesSender (recvTid : Nat) (t : Task) : Task × Bool :=
  if t.state = .blocked ∧ t.blockedSendDst = recvTid then ({ t with blockedSendDst := 0, state := .ready }, true)
  else (t, false)

def wakesWaiter (exitingTid : Nat) (t : Task) : Task × Bool :=
  if t.state = .blocked ∧ t.waitingOn = exitingTid then ({ t with waitingOn := 0, state := .ready }, true)
  else (t, false)

-- A stale deadline of a task that is not Blocked is cleared without a wake.
def wakesSleeper (now : UInt64) (t : Task) : Task × Bool :=
  if t.wakeTick = 0 then (t, false)
  else if t.wakeTick > now then (t, false)
  else if t.state ≠ .blocked then ({ t with wakeTick := 0 }, false)
  else ({ t with wakeTick := 0, state := .ready }, true)

def wakeBlockedSenders (k : Kernel) (recvTid : Nat) : Kernel := k.sweep (wakesSender recvTid)

def wakeWaiters (k : Kernel) (exitingTid : Nat) : Kernel := k.sweep (wakesWaiter exitingTid)

def wakeSleepers (k : Kernel) : Kernel := k.sweep (wakesSleeper k.ticks)

def esrch : Int64 := 3

def eagain : Int64 := 11

-- ipc_send past its checks: fill the mailbox, and wake a Blocked receiver.
def deposit (k : Kernel) (dst : Nat) (data : List UInt8) : Kernel :=
  let t := { k.table dst with
    mailbox := copyPrefix (k.table dst).mailbox (data.take msgMax)
    mailboxLen := min data.length msgMax
    mailboxFrom := k.currentTid }
  if t.state = .blocked then (k.setTask dst { t with state := .ready }).enqueue dst
  else k.setTask dst t

def ipcSend (k : Kernel) (dst : Nat) (data : List UInt8) : Except Int64 Kernel :=
  if dst = 0 ∨ dst ≥ maxTasks then .error esrch
  else if (k.table dst).state = .exited then .error esrch
  else if (k.table dst).mailboxLen > 0 then .error eagain
  else .ok (k.deposit dst data)

-- ipc_recv past its checks: empty the mailbox and wake its blocked senders.
def drain (k : Kernel) (cur : Nat) : Kernel :=
  (k.setTask cur { k.table cur with mailboxLen := 0, mailboxFrom := 0 }).wakeBlockedSenders cur

def ipcRecv (k : Kernel) (bufLen : Nat) : Except Int64 (List UInt8 × Nat × Kernel) :=
  let cur := k.currentTid
  if cur = 0 ∨ cur ≥ maxTasks then .error eagain
  else
    let t := k.table cur
    if t.mailboxLen = 0 then .error eagain
    else .ok (t.mailbox.toList.take (min t.mailboxLen bufLen), t.mailboxFrom, k.drain cur)

-- An Exited slot keeps the code of the task that last ended there.
def tryWait (k : Kernel) (childTid : Nat) : Except Int64 Int64 :=
  if childTid = 0 ∨ childTid ≥ maxTasks then .error esrch
  else if (k.table childTid).state = .exited then .ok (k.table childTid).exitCode
  else .error eagain

-- The common tail of the three switch functions, once a tid is dequeued.
def dispatch (k : Kernel) (next : Nat) (t : Task) : Kernel :=
  { k.setTask next { t with state := .running } with
    ttbr0 := if t.ttbr0Pa ≠ 0 then t.ttbr0Pa else k.ttbr0
    pendingKstackSp := t.kstackTop
    currentTid := next
    history := k.history ++ [.dispatched next] }

def switchToNext (k : Kernel) (frame : TrapFrame) : Bool × Kernel × TrapFrame :=
  match k.scheduler.dequeue with
  | (none, _) => (false, k, frame)
  | (some next, rest) =>
      let k := { k with scheduler := rest }
      match k.task next with
      | none => (false, k.record (.vanished next), frame)
      | some t => (true, k.dispatch next t, t.saved)

-- The first half of save_and_switch: only a Running task is queued again.
def saveCurrent (k : Kernel) (frame : TrapFrame) : Kernel :=
  if k.currentTid = 0 then k
  else
    match k.task k.currentTid with
    | none => k
    | some t =>
        if t.state = .running then
          (k.setTask k.currentTid { t with saved := frame, state := .ready }).enqueue k.currentTid
        else k.setTask k.currentTid { t with saved := frame }

def saveAndSwitch (k : Kernel) (frame : TrapFrame) : Bool × Kernel × TrapFrame :=
  (k.saveCurrent frame).switchToNext frame

def blockCurrent (k : Kernel) (frame : TrapFrame) : Kernel :=
  k.editTask k.currentTid fun t => { t with saved := frame, state := .blocked }

def blockAndSwitch (k : Kernel) (frame : TrapFrame) : Bool × Kernel × TrapFrame :=
  if k.currentTid = 0 then (false, k, frame)
  else (k.blockCurrent frame).switchToNext frame

def exitWith (code : Int64) (t : Task) : Task := { t with state := .exited, exitCode := code }

def killed (t : Task) : Task :=
  { t with
    state := .exited
    blockedSendDst := 0
    wakeTick := 0
    waitingOn := 0
    exitCode := -1
    mailboxLen := 0
    mailboxFrom := 0 }

def killCurrentTask (k : Kernel) (frame : TrapFrame) : Bool × Kernel × TrapFrame :=
  if k.currentTid = 0 ∨ k.currentTid ≥ maxTasks then (false, k, frame)
  else (k.editTask k.currentTid killed).switchToNext frame

end Kernel

end Opal
