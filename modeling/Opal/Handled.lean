import Opal.SchedSpec
import Opal.Vectors

set_option autoImplicit false

namespace Opal

-- The four calls that may block, with what each waits for.
inductive Call where
  | recvblk
  | sendblk (dst : Nat)
  | sleep (ticks : UInt64)
  | wait (child : Nat)
  deriving DecidableEq

namespace Call

def number : Call → UInt64
  | .recvblk => sysRecvblk
  | .sendblk _ => sysSendblk
  | .sleep _ => sysSleep
  | .wait _ => sysWait

theorem number_not_exit (call : Call) : call.number ≠ sysExit ∧ call.number ≠ sysExitCode := by
  cases call with
  | recvblk => exact (show sysRecvblk ≠ sysExit ∧ sysRecvblk ≠ sysExitCode by decide)
  | sendblk _ => exact (show sysSendblk ≠ sysExit ∧ sysSendblk ≠ sysExitCode by decide)
  | sleep _ => exact (show sysSleep ≠ sysExit ∧ sysSleep ≠ sysExitCode by decide)
  | wait _ => exact (show sysWait ≠ sysExit ∧ sysWait ≠ sysExitCode by decide)

theorem number_not_yield (call : Call) : call.number ≠ sysYield := by
  cases call with
  | recvblk => exact (show sysRecvblk ≠ sysYield by decide)
  | sendblk _ => exact (show sysSendblk ≠ sysYield by decide)
  | sleep _ => exact (show sysSleep ≠ sysYield by decide)
  | wait _ => exact (show sysWait ≠ sysYield by decide)

-- What the handler notes in the task before it blocks, and takes back.
def mark (now : UInt64) : Call → Task → Task
  | .recvblk, t => t
  | .sendblk dst, t => { t with blockedSendDst := dst }
  | .sleep ticks, t => { t with wakeTick := deadline now ticks }
  | .wait child, t => { t with waitingOn := child }

def unmark : Call → Task → Task
  | .recvblk, t => t
  | .sendblk _, t => { t with blockedSendDst := 0 }
  | .sleep _, t => { t with wakeTick := 0 }
  | .wait _, t => { t with waitingOn := 0 }

-- The frame a blocked task leaves behind. Only sleep does not go back to its
-- svc.
def saved (frame : TrapFrame) : Call → TrapFrame
  | .sleep _ => frame.setX 0 0
  | _ => { frame with elr := frame.elr - 4 }

-- The frame the task goes on with when there is nobody to switch to.
def refused (frame : TrapFrame) : Call → TrapFrame
  | .sleep _ => frame.setX 0 0
  | _ => ({ frame with elr := frame.elr - 4 + 4 }).setX 0 (-Kernel.eagain).toUInt64

end Call

-- The call with which a handler reaches block_and_switch, if it does.
def blockingCall (spaces : AddressSpaces) (k : Kernel) (mem : UserMem) (frame : TrapFrame) : Option Call :=
  if frame.x 8 = sysRecvblk then
    if frame.x 1 ≠ 0 ∧ isValidUserRange (frame.x 0).toNat (min (frame.x 1).toNat msgMax) = true then
      match k.ipcRecv (min (frame.x 1).toNat msgMax) with
      | .error _ => some .recvblk
      | .ok _ => none
    else none
  else if frame.x 8 = sysSendblk then
    if frame.x 2 ≠ 0 ∧ isValidUserRange (frame.x 1).toNat (min (frame.x 2).toNat msgMax) = true ∧ k.currentTid ≠ 0 then
      match spaces.readUser k mem (frame.x 1).toNat (min (frame.x 2).toNat msgMax) with
      | none => none
      | some msg =>
          match k.ipcSend (frame.x 0).toNat msg with
          | .error e => if e = Kernel.eagain then some (.sendblk (frame.x 0).toNat) else none
          | .ok _ => none
    else none
  else if frame.x 8 = sysSleep then
    if frame.x 0 ≠ 0 ∧ k.currentTid ≠ 0 then some (.sleep (frame.x 0)) else none
  else if frame.x 8 = sysWait then
    match k.tryWait (frame.x 0).toNat with
    | .error e => if e = Kernel.eagain then some (.wait (frame.x 0).toNat) else none
    | .ok _ => none
  else none

def blockedKernel (k : Kernel) (call : Call) : Kernel := k.editTask k.currentTid (call.mark k.ticks)

-- What the handler does from the mark on.
def blockFor (k : Kernel) (mem : UserMem) (frame : TrapFrame) (call : Call) : Outcome :=
  let result := (blockedKernel k call).blockAndSwitch (call.saved frame)
  if result.1 then .resumed result.2.1 mem result.2.2
  else .resumed (result.2.1.editTask k.currentTid call.unmark) mem (call.refused frame)

-- A call that ends with a value in x0 and nothing else changed.
inductive Answer (spaces : AddressSpaces) (k : Kernel) (mem : UserMem) (frame : TrapFrame) : UInt64 → Prop where
  | write (value : UInt64) (nr : frame.x 8 = sysWrite) : Answer spaces k mem frame value
  | unknown (nr : frame.x 8 ∉ [sysWrite, sysExit, sysYield, sysSend, sysRecv, sysRecvblk, sysSendblk, sysSleep,
      sysExitCode, sysWait]) : Answer spaces k mem frame enosys.toUInt64
  | sendNothing (nr : frame.x 8 = sysSend ∨ frame.x 8 = sysSendblk) (none_ : frame.x 2 = 0) :
      Answer spaces k mem frame 0
  | sendBadBuffer (nr : frame.x 8 = sysSend ∨ frame.x 8 = sysSendblk) (some_ : frame.x 2 ≠ 0)
      (bad : isValidUserRange (frame.x 1).toNat (min (frame.x 2).toNat msgMax) = false) :
      Answer spaces k mem frame efault.toUInt64
  | sendRefused (nr : frame.x 8 = sysSend ∨ frame.x 8 = sysSendblk) (msg : List UInt8) (e : Int64)
      (some_ : frame.x 2 ≠ 0) (valid : isValidUserRange (frame.x 1).toNat (min (frame.x 2).toNat msgMax) = true)
      (read : spaces.readUser k mem (frame.x 1).toNat (min (frame.x 2).toNat msgMax) = some msg)
      (refused : k.ipcSend (frame.x 0).toNat msg = .error e) : Answer spaces k mem frame e.toUInt64
  | recvNoBuffer (nr : frame.x 8 = sysRecv ∨ frame.x 8 = sysRecvblk) (none_ : frame.x 1 = 0) :
      Answer spaces k mem frame einval.toUInt64
  | recvBadBuffer (nr : frame.x 8 = sysRecv ∨ frame.x 8 = sysRecvblk)
      (bad : isValidUserRange (frame.x 0).toNat (min (frame.x 1).toNat msgMax) = false) :
      Answer spaces k mem frame efault.toUInt64
  | recvNothing (nr : frame.x 8 = sysRecv) (bufLen : Nat) (e : Int64) (some_ : frame.x 1 ≠ 0)
      (valid : isValidUserRange (frame.x 0).toNat (min (frame.x 1).toNat msgMax) = true)
      (refused : k.ipcRecv bufLen = .error e) : Answer spaces k mem frame e.toUInt64
  | sleepNothing (nr : frame.x 8 = sysSleep) (none_ : frame.x 0 = 0) : Answer spaces k mem frame 0
  | sleepNobody (nr : frame.x 8 = sysSleep) (kernel : k.currentTid = 0) : Answer spaces k mem frame einval.toUInt64
  | waited (nr : frame.x 8 = sysWait) (code : Int64) (ended : k.tryWait (frame.x 0).toNat = .ok code) :
      Answer spaces k mem frame code.toUInt64
  | waitRefused (nr : frame.x 8 = sysWait) (e : Int64) (refused : k.tryWait (frame.x 0).toNat = .error e)
      (other : e ≠ Kernel.eagain) : Answer spaces k mem frame e.toUInt64

-- Everything handle_svc_from_el0 can do.
inductive Handled (spaces : AddressSpaces) (k : Kernel) (mem : UserMem) (frame : TrapFrame) : Outcome → Prop where
  | answered (value : UInt64) (answer : Answer spaces k mem frame value) (goes_on : blockingCall spaces k mem frame = none) :
      Handled spaces k mem frame (.resumed k mem (frame.setX 0 value))
  | readFault (nr : frame.x 8 = sysWrite ∨ frame.x 8 = sysSend ∨ frame.x 8 = sysSendblk)
      (unread : frame.x 8 ≠ sysWrite →
        frame.x 2 ≠ 0 ∧ spaces.readUser k mem (frame.x 1).toNat (min (frame.x 2).toNat msgMax) = none)
      (goes_on : blockingCall spaces k mem frame = none) : Handled spaces k mem frame (.parked .faultInHandler k)
  | writeFault (nr : frame.x 8 = sysRecv ∨ frame.x 8 = sysRecvblk) (bufLen : Nat) (msg : List UInt8) (sender : Nat)
      (after : Kernel) (received : k.ipcRecv bufLen = .ok (msg, sender, after))
      (goes_on : blockingCall spaces k mem frame = none) : Handled spaces k mem frame (.parked .faultInHandler after)
  | sent (nr : frame.x 8 = sysSend ∨ frame.x 8 = sysSendblk) (some_ : frame.x 2 ≠ 0) (msg : List UInt8) (after : Kernel)
      (read : spaces.readUser k mem (frame.x 1).toNat (min (frame.x 2).toNat msgMax) = some msg)
      (accepted : k.ipcSend (frame.x 0).toNat msg = .ok after) (goes_on : blockingCall spaces k mem frame = none) :
      Handled spaces k mem frame (.resumed after mem (frame.setX 0 0))
  | received (nr : frame.x 8 = sysRecv ∨ frame.x 8 = sysRecvblk) (msg : List UInt8) (sender : Nat) (after : Kernel)
      (mem' : UserMem) (took : k.ipcRecv (min (frame.x 1).toNat msgMax) = .ok (msg, sender, after))
      (wrote : spaces.writeUser after mem (frame.x 0).toNat msg = some mem')
      (goes_on : blockingCall spaces k mem frame = none) :
      Handled spaces k mem frame
        (.resumed after mem' ((frame.setX 0 (UInt64.ofNat msg.length)).setX 1 (UInt64.ofNat sender)))
  | yielded (nr : frame.x 8 = sysYield) : Handled spaces k mem frame (svcYield k mem frame)
  | blocking (call : Call) (blocks : blockingCall spaces k mem frame = some call) :
      Handled spaces k mem frame (blockFor k mem frame call)
  | exited (nr : frame.x 8 = sysExit ∨ frame.x 8 = sysExitCode) : Handled spaces k mem frame (svcExit spaces k mem frame)

theorem block_and_switch_stays (k : Kernel) (frame : TrapFrame) (stays : (k.blockAndSwitch frame).1 = false) :
    (k.blockAndSwitch frame).2.2 = frame := by
  by_cases kernel : k.currentTid = 0
  · simp only [Kernel.blockAndSwitch, if_pos kernel]
  · simp only [Kernel.blockAndSwitch, if_neg kernel] at stays ⊢
    rcases Kernel.switch_cases (k.blockCurrent frame) frame with ⟨_, same⟩ | ⟨_, _, _, _, same⟩ | ⟨_, _, _, _, _, same⟩
    · rw [same]
    · rw [same]
    · rw [same] at stays
      cases stays

theorem block_to_retry_eq (k : Kernel) (mem : UserMem) (frame : TrapFrame) (call : Call)
    (rewinds : ∀ ticks, call ≠ .sleep ticks) :
    blockToRetry k mem frame (call.mark k.ticks) call.unmark = blockFor k mem frame call := by
  have saved : call.saved frame = { frame with elr := frame.elr - 4 } := by
    cases call with
    | sleep ticks => exact absurd rfl (rewinds ticks)
    | _ => rfl
  have refused : call.refused frame =
      ({ frame with elr := frame.elr - 4 + 4 } : TrapFrame).setX 0 (-Kernel.eagain).toUInt64 := by
    cases call with
    | sleep ticks => exact absurd rfl (rewinds ticks)
    | _ => rfl
  simp only [blockToRetry, blockFor, blockedKernel, saved, refused, reply]
  split
  · rfl
  · next stays => rw [block_and_switch_stays _ _ (Bool.eq_false_iff.mpr stays)]

theorem blocking_call_number (spaces : AddressSpaces) (k : Kernel) (mem : UserMem) (frame : TrapFrame) (call : Call)
    (blocks : blockingCall spaces k mem frame = some call) :
    frame.x 8 = call.number := by
  unfold blockingCall at blocks
  split_ifs at blocks with recvblk _ sendblk _ sleep _ wait
  · split at blocks
    · cases blocks
      exact recvblk
    · cases blocks
  · split at blocks
    · cases blocks
    · split at blocks
      · split at blocks
        · cases blocks
          exact sendblk
        · cases blocks
      · cases blocks
  · cases blocks
    exact sleep
  · split at blocks
    · split at blocks
      · cases blocks
        exact wait
      · cases blocks
    · cases blocks

theorem yield_does_not_block (spaces : AddressSpaces) (k : Kernel) (mem : UserMem) (frame : TrapFrame)
    (nr : frame.x 8 = sysYield) : blockingCall spaces k mem frame = none := by
  cases blocks : blockingCall spaces k mem frame with
  | none => rfl
  | some call =>
      have number := blocking_call_number spaces k mem frame call blocks
      exact absurd (number.symm.trans nr) call.number_not_yield

section
variable (spaces : AddressSpaces) (k : Kernel) (mem : UserMem) (frame : TrapFrame)

theorem recvblk_arm (nr : frame.x 8 = sysRecvblk) :
    blockingCall spaces k mem frame =
      if frame.x 1 ≠ 0 ∧ isValidUserRange (frame.x 0).toNat (min (frame.x 1).toNat msgMax) = true then
        match k.ipcRecv (min (frame.x 1).toNat msgMax) with
        | .error _ => some .recvblk
        | .ok _ => none
      else none := by
  rw [blockingCall, nr]
  rfl

theorem sendblk_arm (nr : frame.x 8 = sysSendblk) :
    blockingCall spaces k mem frame =
      if frame.x 2 ≠ 0 ∧ isValidUserRange (frame.x 1).toNat (min (frame.x 2).toNat msgMax) = true ∧ k.currentTid ≠ 0 then
        match spaces.readUser k mem (frame.x 1).toNat (min (frame.x 2).toNat msgMax) with
        | none => none
        | some msg =>
            match k.ipcSend (frame.x 0).toNat msg with
            | .error e => if e = Kernel.eagain then some (.sendblk (frame.x 0).toNat) else none
            | .ok _ => none
      else none := by
  rw [blockingCall, nr]
  rfl

theorem sleep_arm (nr : frame.x 8 = sysSleep) :
    blockingCall spaces k mem frame = if frame.x 0 ≠ 0 ∧ k.currentTid ≠ 0 then some (.sleep (frame.x 0)) else none := by
  rw [blockingCall, nr]
  rfl

theorem wait_arm (nr : frame.x 8 = sysWait) :
    blockingCall spaces k mem frame =
      match k.tryWait (frame.x 0).toNat with
      | .error e => if e = Kernel.eagain then some (.wait (frame.x 0).toNat) else none
      | .ok _ => none := by
  rw [blockingCall, nr]
  rfl

theorem write_handled (nr : frame.x 8 = sysWrite) : Handled spaces k mem frame (svcWrite spaces k mem frame) := by
  have goes_on : blockingCall spaces k mem frame = none := by
    rw [blockingCall, nr]
    rfl
  unfold svcWrite
  dsimp only
  split_ifs
  · exact .answered _ (.write _ nr) goes_on
  · exact .answered _ (.write _ nr) goes_on
  · exact .answered _ (.write _ nr) goes_on
  · split
    · exact .readFault (.inl nr) (fun other => absurd nr other) goes_on
    · exact .answered _ (.write _ nr) goes_on

theorem send_handled (nr : frame.x 8 = sysSend) : Handled spaces k mem frame (svcSend spaces k mem frame) := by
  have goes_on : blockingCall spaces k mem frame = none := by
    rw [blockingCall, nr]
    rfl
  unfold svcSend svcSendOr
  dsimp only
  split_ifs with nothing bad
  · exact .answered _ (.sendNothing (.inl nr) nothing) goes_on
  · exact .answered _ (.sendBadBuffer (.inl nr) nothing bad) goes_on
  · have valid := Bool.not_eq_false _ ▸ bad
    split
    · next unread => exact .readFault (.inr (.inl nr)) (fun _ => ⟨nothing, unread⟩) goes_on
    · next msg read =>
        split
        · next after accepted => exact .sent (.inl nr) nothing msg after read accepted goes_on
        · next e refused => exact .answered _ (.sendRefused (.inl nr) msg e nothing valid read refused) goes_on

theorem recv_handled (nr : frame.x 8 = sysRecv) : Handled spaces k mem frame (svcRecv spaces k mem frame) := by
  have goes_on : blockingCall spaces k mem frame = none := by
    rw [blockingCall, nr]
    rfl
  unfold svcRecv svcRecvOr
  dsimp only
  split_ifs with nothing bad
  · exact .answered _ (.recvNoBuffer (.inl nr) nothing) goes_on
  · exact .answered _ (.recvBadBuffer (.inl nr) bad) goes_on
  · split
    · next e refused => exact .answered _ (.recvNothing nr _ e nothing (Bool.not_eq_false _ ▸ bad) refused) goes_on
    · next msg sender after took =>
        split
        · exact .writeFault (.inl nr) _ msg sender after took goes_on
        · next mem' wrote => exact .received (.inl nr) msg sender after mem' took wrote goes_on

theorem recvblk_handled (nr : frame.x 8 = sysRecvblk) : Handled spaces k mem frame (svcRecvblk spaces k mem frame) := by
  unfold svcRecvblk svcRecvOr
  dsimp only
  split_ifs with nothing bad
  · refine .answered _ (.recvNoBuffer (.inr nr) nothing) ?_
    simp only [blockingCall, nr, nothing, ne_eq, not_true_eq_false, false_and, if_true, if_false]
  · refine .answered _ (.recvBadBuffer (.inr nr) bad) ?_
    simp only [blockingCall, nr, bad, Bool.false_eq_true, and_false, if_true, if_false]
  · have asks : frame.x 1 ≠ 0 ∧ isValidUserRange (frame.x 0).toNat (min (frame.x 1).toNat msgMax) = true :=
      ⟨nothing, Bool.not_eq_false _ ▸ bad⟩
    split
    · next e refused =>
        have blocks : blockingCall spaces k mem frame = some .recvblk := by
          simp only [blockingCall, nr, if_true, if_pos asks, refused]
        have same := block_to_retry_eq k mem frame .recvblk (fun _ => by simp)
        exact (show blockToRetry k mem frame id id = _ from same) ▸ .blocking .recvblk blocks
    · next msg sender after took =>
        have goes_on : blockingCall spaces k mem frame = none := by
          simp only [blockingCall, nr, if_true, if_pos asks, took]
        split
        · exact .writeFault (.inr nr) _ msg sender after took goes_on
        · next mem' wrote => exact .received (.inr nr) msg sender after mem' took wrote goes_on

theorem sendblk_handled (nr : frame.x 8 = sysSendblk) : Handled spaces k mem frame (svcSendblk spaces k mem frame) := by
  have arm := sendblk_arm spaces k mem frame nr
  unfold svcSendblk svcSendOr
  dsimp only
  by_cases nothing : frame.x 2 = 0
  · rw [if_pos nothing]
    refine .answered _ (.sendNothing (.inr nr) nothing) ?_
    simp only [arm, nothing, ne_eq, not_true_eq_false, false_and, if_false]
  rw [if_neg nothing]
  by_cases bad : isValidUserRange (frame.x 1).toNat (min (frame.x 2).toNat msgMax) = false
  · rw [if_pos bad]
    refine .answered _ (.sendBadBuffer (.inr nr) nothing bad) ?_
    simp only [arm, bad, Bool.false_eq_true, false_and, and_false, if_false]
  rw [if_neg bad]
  have valid : isValidUserRange (frame.x 1).toNat (min (frame.x 2).toNat msgMax) = true := Bool.not_eq_false _ ▸ bad
  cases read : spaces.readUser k mem (frame.x 1).toNat (min (frame.x 2).toNat msgMax) with
  | none =>
      refine .readFault (.inr (.inr nr)) (fun _ => ⟨nothing, read⟩) ?_
      simp only [arm, read, ite_self]
  | some msg =>
      dsimp only
      cases outcome : k.ipcSend (frame.x 0).toNat msg with
      | ok after =>
          refine .sent (.inr nr) nothing msg after read outcome ?_
          simp only [arm, read, outcome, ite_self]
      | error e =>
          dsimp only
          by_cases full : e = Kernel.eagain
          · by_cases kernel : k.currentTid = 0
            · rw [if_pos full, if_pos kernel]
              refine .answered _ (.sendRefused (.inr nr) msg e nothing valid read outcome) ?_
              simp only [arm, kernel, ne_eq, not_true_eq_false, and_false, if_false]
            · have blocks : blockingCall spaces k mem frame = some (.sendblk (frame.x 0).toNat) := by
                rw [arm, if_pos ⟨nothing, valid, kernel⟩]
                simp only [read, outcome, if_pos full]
              have same := block_to_retry_eq k mem frame (.sendblk (frame.x 0).toNat) (fun _ => by simp)
              rw [if_pos full, if_neg kernel]
              exact same ▸ .blocking _ blocks
          · rw [if_neg full]
            refine .answered _ (.sendRefused (.inr nr) msg e nothing valid read outcome) ?_
            simp only [arm, read, outcome, if_neg full, ite_self]

theorem sleep_handled (nr : frame.x 8 = sysSleep) : Handled spaces k mem frame (svcSleep k mem frame) := by
  have arm := sleep_arm spaces k mem frame nr
  by_cases nothing : frame.x 0 = 0
  · rw [svcSleep, if_pos nothing]
    refine .answered _ (.sleepNothing nr nothing) ?_
    simp only [arm, nothing, ne_eq, not_true_eq_false, false_and, if_false]
  · by_cases kernel : k.currentTid = 0
    · rw [svcSleep, if_neg nothing, if_pos kernel]
      refine .answered _ (.sleepNobody nr kernel) ?_
      simp only [arm, kernel, ne_eq, not_true_eq_false, and_false, if_false]
    · have blocks : blockingCall spaces k mem frame = some (.sleep (frame.x 0)) := by
        rw [arm, if_pos ⟨nothing, kernel⟩]
      have same : svcSleep k mem frame = blockFor k mem frame (.sleep (frame.x 0)) := by
        have marked : k.editTask k.currentTid (fun t => { t with wakeTick := deadline k.ticks (frame.x 0) }) =
            blockedKernel k (.sleep (frame.x 0)) := rfl
        have unmark : (fun t : Task => { t with wakeTick := 0 }) = (Call.sleep (frame.x 0)).unmark := rfl
        have frames : Call.saved frame (.sleep (frame.x 0)) = frame.setX 0 0 ∧
            Call.refused frame (.sleep (frame.x 0)) = frame.setX 0 0 := ⟨rfl, rfl⟩
        simp only [svcSleep, if_neg nothing, if_neg kernel, blockFor, marked, unmark, frames.1, frames.2]
        split
        · rfl
        · next stays => rw [block_and_switch_stays _ _ (Bool.eq_false_iff.mpr stays)]
      exact same ▸ .blocking _ blocks

theorem wait_handled (nr : frame.x 8 = sysWait) : Handled spaces k mem frame (svcWait k mem frame) := by
  have arm := wait_arm spaces k mem frame nr
  unfold svcWait
  dsimp only
  split
  · next code ended =>
      refine .answered _ (.waited nr code ended) ?_
      simp only [arm, ended]
  · next e refused =>
      split_ifs with alive
      · have blocks : blockingCall spaces k mem frame = some (.wait (frame.x 0).toNat) := by
          simp only [arm, refused, if_pos alive]
        have same := block_to_retry_eq k mem frame (.wait (frame.x 0).toNat) (fun _ => by simp)
        exact (show blockToRetry k mem frame (fun t => { t with waitingOn := (frame.x 0).toNat })
          (fun t => { t with waitingOn := 0 }) = _ from same) ▸ .blocking _ blocks
      · refine .answered _ (.waitRefused nr e refused alive) ?_
        simp only [arm, refused, if_neg alive]

theorem svc_handled : Handled spaces k mem frame (handleSvcFromEl0 spaces k mem frame) := by
  unfold handleSvcFromEl0
  dsimp only
  split_ifs with write yield_ send recv recvblk sendblk sleep exit_ wait
  · exact write_handled spaces k mem frame write
  · exact .yielded yield_
  · exact send_handled spaces k mem frame send
  · exact recv_handled spaces k mem frame recv
  · exact recvblk_handled spaces k mem frame recvblk
  · exact sendblk_handled spaces k mem frame sendblk
  · exact sleep_handled spaces k mem frame sleep
  · exact .exited exit_
  · exact wait_handled spaces k mem frame wait
  · refine .answered _ (.unknown ?_) ?_
    · simp only [List.mem_cons, List.not_mem_nil, or_false, not_or] at exit_ ⊢
      exact ⟨write, exit_.1, yield_, send, recv, recvblk, sendblk, sleep, exit_.2, wait⟩
    · simp only [blockingCall, if_neg recvblk, if_neg sendblk, if_neg sleep, if_neg wait]

theorem handled_waits (nr : frame.x 8 = sysWait) : handleSvcFromEl0 spaces k mem frame = svcWait k mem frame := by
  simp only [handleSvcFromEl0, nr]
  rfl

theorem handled_exits (nr : frame.x 8 = sysExit ∨ frame.x 8 = sysExitCode) :
    handleSvcFromEl0 spaces k mem frame = svcExit spaces k mem frame := by
  rcases nr with nr | nr
  · simp only [handleSvcFromEl0, nr]
    rfl
  · simp only [handleSvcFromEl0, nr]
    rfl

theorem handled_blocks (call : Call) (blocks : blockingCall spaces k mem frame = some call) :
    handleSvcFromEl0 spaces k mem frame = blockFor k mem frame call := by
  have nr := blocking_call_number spaces k mem frame call blocks
  have handled := svc_handled spaces k mem frame
  generalize handleSvcFromEl0 spaces k mem frame = outcome at handled
  cases handled with
  | answered _ _ goes_on => exact absurd (goes_on.symm.trans blocks) (fun no => (by cases no))
  | readFault _ _ goes_on => exact absurd (goes_on.symm.trans blocks) (fun no => (by cases no))
  | writeFault _ _ _ _ _ _ goes_on => exact absurd (goes_on.symm.trans blocks) (fun no => (by cases no))
  | sent _ _ _ _ _ _ goes_on => exact absurd (goes_on.symm.trans blocks) (fun no => (by cases no))
  | received _ _ _ _ _ _ _ goes_on => exact absurd (goes_on.symm.trans blocks) (fun no => (by cases no))
  | yielded yield_ => exact absurd (nr.symm.trans yield_) call.number_not_yield
  | blocking other same =>
      rw [blocks] at same
      rw [Option.some.inj same]
  | exited exit_ =>
      rcases exit_ with exit_ | exit_
      · exact absurd (nr.symm.trans exit_) call.number_not_exit.1
      · exact absurd (nr.symm.trans exit_) call.number_not_exit.2

end

end Opal
