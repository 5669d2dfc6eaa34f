import Opal.Fallback
import Opal.Mail
import Opal.Retry
import Opal.Saved

set_option autoImplicit false

namespace Opal

namespace Outcome

-- The context in which the caller of a handler goes on: the handler's frame, or
-- the saved one if the core goes to another task first.
def own (k : Kernel) : Outcome → Option TrapFrame
  | .resumed k' _ frame =>
      if k'.dispatches = k.dispatches then some frame
      else if (k'.table k.currentTid).state = .exited then none
      else some (k'.table k.currentTid).saved
  | _ => none

-- The x0 it finds there, if its call is complete: a context that is back on the
-- svc has the call still to make.
def result (k : Kernel) (pc : UInt64) (outcome : Outcome) : Option UInt64 :=
  match outcome.own k with
  | some frame => if frame.elr = pc then some (frame.x 0) else none
  | none => none

end Outcome

namespace Kernel

-- Not a task number, or the number of a slot no task was ever spawned in.
def NoSuchTask (k : Kernel) (tid : Nat) : Prop := tid = 0 ∨ tid ≥ maxTasks ∨ (k.table tid).ttbr0Pa = 0

-- A message has come into dst's empty mailbox.
def Deposited (k k' : Kernel) (dst : Nat) : Prop := (k.table dst).mailboxLen = 0 ∧ (k'.table dst).mailboxLen ≠ 0

-- The current task's message has left its mailbox.
def Delivered (k k' : Kernel) : Prop :=
  (k.table k.currentTid).mailboxLen ≠ 0 ∧ (k'.table k.currentTid).mailboxLen = 0

-- A yield gives the core away, if only to find the same task next in the queue.
def Yields (k : Kernel) : Prop :=
  k.currentTid ≠ 0 ∧
    ∃ next, (k.ready ++ if (k.table k.currentTid).state = .running then [k.currentTid] else []).head? = some next ∧
      next < maxTasks ∧ (k.table next).state ≠ .exited

-- A send to dst fails at once. A sendblk to a full mailbox does so only when
-- there is no task to block.
def Refuses (k : Kernel) (dst : Nat) (blocking : Bool) : Prop :=
  dst = 0 ∨ dst ≥ maxTasks ∨ (k.table dst).state = .exited ∨
    (k.table dst).mailboxLen ≠ 0 ∧ (blocking = false ∨ k.currentTid = 0)

def NoMessage (k : Kernel) : Prop :=
  k.currentTid = 0 ∨ k.currentTid ≥ maxTasks ∨ (k.table k.currentTid).mailboxLen = 0

end Kernel

-- What the documented ABI promises about x0 when a call made with this frame
-- takes the kernel from k to k'.
def Promised (k : Kernel) (frame : TrapFrame) (k' : Kernel) (x0 : UInt64) : Prop :=
  if frame.x 8 = sysYield then x0 = 0
  else if frame.x 8 = sysSend ∨ frame.x 8 = sysSendblk then
    (k.Deposited k' (frame.x 0).toNat → x0 = 0) ∧ (¬ k.Deposited k' (frame.x 0).toNat → x0.toInt64 < 0)
  else if frame.x 8 = sysRecv ∨ frame.x 8 = sysRecvblk then
    (k.Delivered k' →
      0 ≤ x0.toInt64 ∧ x0.toNat = min (k.table k.currentTid).mailboxLen (min (frame.x 1).toNat msgMax)) ∧
      (¬ k.Delivered k' → x0.toInt64 < 0)
  else if frame.x 8 = sysWait then k.NoSuchTask (frame.x 0).toNat → x0.toInt64 < 0
  else if frame.x 8 = sysWrite ∨ frame.x 8 = sysExit ∨ frame.x 8 = sysSleep ∨ frame.x 8 = sysExitCode then True
  else x0.toInt64 < 0

-- The calls whose result breaks that promise.
def Misreports (spaces : AddressSpaces) (k : Kernel) (mem : UserMem) (frame : TrapFrame) : Prop :=
  if frame.x 8 = sysYield then frame.x 0 ≠ 0 ∧ k.Yields
  else if frame.x 8 = sysSend ∨ frame.x 8 = sysSendblk then
    frame.x 2 = 0 ∨
      isValidUserRange (frame.x 1).toNat (min (frame.x 2).toNat msgMax) = true ∧
        (spaces.readUser k mem (frame.x 1).toNat (min (frame.x 2).toNat msgMax)).isSome = true ∧
          k.Refuses (frame.x 0).toNat (decide (frame.x 8 = sysSendblk))
  else if frame.x 8 = sysRecv then
    frame.x 1 ≠ 0 ∧ isValidUserRange (frame.x 0).toNat (min (frame.x 1).toNat msgMax) = true ∧ k.NoMessage
  else if frame.x 8 = sysWait then k.NoSuchTask (frame.x 0).toNat
  else False

section
variable (spaces : AddressSpaces) (k k' : Kernel) (mem : UserMem) (frame : TrapFrame) (x0 : UInt64)

theorem promised_yield (nr : frame.x 8 = sysYield) : Promised k frame k' x0 ↔ x0 = 0 := by
  simp only [Promised, nr]
  rfl

theorem promised_send (nr : frame.x 8 = sysSend ∨ frame.x 8 = sysSendblk) :
    Promised k frame k' x0 ↔
      (k.Deposited k' (frame.x 0).toNat → x0 = 0) ∧ (¬ k.Deposited k' (frame.x 0).toNat → x0.toInt64 < 0) := by
  rcases nr with nr | nr
  · simp only [Promised, nr]
    rfl
  · simp only [Promised, nr]
    rfl

theorem promised_recv (nr : frame.x 8 = sysRecv ∨ frame.x 8 = sysRecvblk) :
    Promised k frame k' x0 ↔
      (k.Delivered k' →
        0 ≤ x0.toInt64 ∧ x0.toNat = min (k.table k.currentTid).mailboxLen (min (frame.x 1).toNat msgMax)) ∧
        (¬ k.Delivered k' → x0.toInt64 < 0) := by
  rcases nr with nr | nr
  · simp only [Promised, nr]
    rfl
  · simp only [Promised, nr]
    rfl

theorem promised_wait (nr : frame.x 8 = sysWait) :
    Promised k frame k' x0 ↔ (k.NoSuchTask (frame.x 0).toNat → x0.toInt64 < 0) := by
  simp only [Promised, nr]
  rfl

theorem promised_other (nr : frame.x 8 = sysWrite ∨ frame.x 8 = sysExit ∨ frame.x 8 = sysSleep ∨ frame.x 8 = sysExitCode) :
    Promised k frame k' x0 ∧ ¬ Misreports spaces k mem frame := by
  rcases nr with nr | nr | nr | nr
  · simp only [Promised, Misreports, nr]
    exact ⟨trivial, id⟩
  · simp only [Promised, Misreports, nr]
    exact ⟨trivial, id⟩
  · simp only [Promised, Misreports, nr]
    exact ⟨trivial, id⟩
  · simp only [Promised, Misreports, nr]
    exact ⟨trivial, id⟩

theorem misreports_yield (nr : frame.x 8 = sysYield) :
    Misreports spaces k mem frame ↔ frame.x 0 ≠ 0 ∧ k.Yields := by
  simp only [Misreports, nr]
  rfl

theorem misreports_send (nr : frame.x 8 = sysSend ∨ frame.x 8 = sysSendblk) :
    Misreports spaces k mem frame ↔
      frame.x 2 = 0 ∨
        isValidUserRange (frame.x 1).toNat (min (frame.x 2).toNat msgMax) = true ∧
          (spaces.readUser k mem (frame.x 1).toNat (min (frame.x 2).toNat msgMax)).isSome = true ∧
            k.Refuses (frame.x 0).toNat (decide (frame.x 8 = sysSendblk)) := by
  rcases nr with nr | nr
  · simp only [Misreports, nr]
    rfl
  · simp only [Misreports, nr]
    rfl

theorem misreports_recv (nr : frame.x 8 = sysRecv) :
    Misreports spaces k mem frame ↔
      frame.x 1 ≠ 0 ∧ isValidUserRange (frame.x 0).toNat (min (frame.x 1).toNat msgMax) = true ∧ k.NoMessage := by
  simp only [Misreports, nr]
  rfl

theorem misreports_recvblk (nr : frame.x 8 = sysRecvblk) : ¬ Misreports spaces k mem frame := by
  simp only [Misreports, nr]
  exact id

theorem misreports_wait (nr : frame.x 8 = sysWait) : Misreports spaces k mem frame ↔ k.NoSuchTask (frame.x 0).toNat := by
  simp only [Misreports, nr]
  rfl

end

theorem errno_positive (e : Int64) (errno : e = Kernel.esrch ∨ e = Kernel.eagain) : ¬ e.toUInt64.toInt64 < 0 := by
  rcases errno with rfl | rfl
  · decide
  · decide

-- What the caller of a handler must find for the call to keep the ABI.
def KeepsAbi (k : Kernel) (frame : TrapFrame) (outcome : Outcome) : Prop :=
  ∀ x0, outcome.result k frame.elr = some x0 → Promised k frame outcome.kernel x0

section
variable (spaces : AddressSpaces) (k : Kernel) (mem : UserMem) (frame : TrapFrame)

theorem ipc_send_errno (dst : Nat) (msg : List UInt8) (e : Int64) (refused : k.ipcSend dst msg = .error e) :
    (e = Kernel.esrch ∧ (dst = 0 ∨ dst ≥ maxTasks ∨ (k.table dst).state = .exited)) ∨
      (e = Kernel.eagain ∧ (k.table dst).mailboxLen ≠ 0) := by
  unfold Kernel.ipcSend at refused
  split_ifs at refused with range gone full
  · exact .inl ⟨(Except.error.inj refused).symm, range.elim .inl fun high => .inr (.inl high)⟩
  · exact .inl ⟨(Except.error.inj refused).symm, .inr (.inr gone)⟩
  · exact .inr ⟨(Except.error.inj refused).symm, Nat.ne_of_gt full⟩

theorem ipc_recv_errno (bufLen : Nat) (e : Int64) (refused : k.ipcRecv bufLen = .error e) :
    e = Kernel.eagain ∧ k.NoMessage := by
  unfold Kernel.ipcRecv at refused
  dsimp only at refused
  split_ifs at refused with range empty
  · exact ⟨(Except.error.inj refused).symm, range.elim .inl fun high => .inr (.inl high)⟩
  · exact ⟨(Except.error.inj refused).symm, .inr (.inr empty)⟩

theorem try_wait_errno (child : Nat) (e : Int64) (refused : k.tryWait child = .error e) (other : e ≠ Kernel.eagain) :
    e = Kernel.esrch ∧ (child = 0 ∨ child ≥ maxTasks) := by
  unfold Kernel.tryWait at refused
  split_ifs at refused with range
  · exact ⟨(Except.error.inj refused).symm, range⟩
  · exact absurd (Except.error.inj refused).symm other

theorem result_stays (k' : Kernel) (mem' : UserMem) (frame' : TrapFrame) (same : k'.dispatches = k.dispatches)
    (forth : frame'.elr = frame.elr) : (Outcome.resumed k' mem' frame').result k frame.elr = some (frame'.x 0) := by
  simp only [Outcome.result, Outcome.own, if_pos same, if_pos forth]

theorem result_switched (k' : Kernel) (mem' : UserMem) (frame' : TrapFrame) (moved : k'.dispatches ≠ k.dispatches)
    (live : (k'.table k.currentTid).state ≠ .exited) :
    (Outcome.resumed k' mem' frame').result k frame.elr =
      if (k'.table k.currentTid).saved.elr = frame.elr then some ((k'.table k.currentTid).saved.x 0) else none := by
  simp only [Outcome.result, Outcome.own, if_neg moved, if_neg live]

theorem keeps_stays_iff (k' : Kernel) (mem' : UserMem) (frame' : TrapFrame) (same : k'.dispatches = k.dispatches)
    (forth : frame'.elr = frame.elr) :
    KeepsAbi k frame (.resumed k' mem' frame') ↔ Promised k frame k' (frame'.x 0) := by
  rw [KeepsAbi, result_stays k frame k' mem' frame' same forth]
  exact ⟨fun keeps => keeps _ rfl, fun promised x0 found => Option.some.inj found ▸ promised⟩

theorem keeps_answered_iff (value : UInt64) :
    KeepsAbi k frame (.resumed k mem (frame.setX 0 value)) ↔ Promised k frame k value := by
  rw [keeps_stays_iff k frame k mem (frame.setX 0 value) rfl rfl, TrapFrame.set_x_same]

theorem nothing_deposited (dst : Nat) : ¬ k.Deposited k dst := fun both => both.2 both.1

theorem nothing_delivered : ¬ k.Delivered k := fun both => both.1 both.2

theorem promised_send_failed (nr : frame.x 8 = sysSend ∨ frame.x 8 = sysSendblk) (value : UInt64) :
    Promised k frame k value ↔ value.toInt64 < 0 := by
  have nothing := nothing_deposited k (frame.x 0).toNat
  rw [promised_send k k frame value nr]
  exact ⟨fun both => both.2 nothing, fun below => ⟨fun no => absurd no nothing, fun _ => below⟩⟩

theorem promised_recv_failed (nr : frame.x 8 = sysRecv ∨ frame.x 8 = sysRecvblk) (value : UInt64) :
    Promised k frame k value ↔ value.toInt64 < 0 := by
  have nothing := nothing_delivered k
  rw [promised_recv k k frame value nr]
  exact ⟨fun both => both.2 nothing, fun below => ⟨fun no => absurd no nothing, fun _ => below⟩⟩

theorem recv_no_buffer_keeps (nr : frame.x 8 = sysRecv ∨ frame.x 8 = sysRecvblk) (value : UInt64)
    (below : value.toInt64 < 0)
    (no : ¬ (frame.x 1 ≠ 0 ∧ isValidUserRange (frame.x 0).toNat (min (frame.x 1).toNat msgMax) = true)) :
    Promised k frame k value ↔ ¬ Misreports spaces k mem frame := by
  rw [promised_recv_failed k frame nr value]
  refine ⟨fun _ => ?_, fun _ => below⟩
  rcases nr with nr | nr
  · rw [misreports_recv spaces k mem frame nr]
    exact fun all => no ⟨all.1, all.2.1⟩
  · exact misreports_recvblk spaces k mem frame nr

theorem send_refused_keeps (nr : frame.x 8 = sysSend ∨ frame.x 8 = sysSendblk) (msg : List UInt8) (e : Int64)
    (valid : isValidUserRange (frame.x 1).toNat (min (frame.x 2).toNat msgMax) = true) (some_ : frame.x 2 ≠ 0)
    (read : spaces.readUser k mem (frame.x 1).toNat (min (frame.x 2).toNat msgMax) = some msg)
    (refused : k.ipcSend (frame.x 0).toNat msg = .error e) (goes_on : blockingCall spaces k mem frame = none) :
    Promised k frame k e.toUInt64 ↔ ¬ Misreports spaces k mem frame := by
  have errno := ipc_send_errno k _ msg e refused
  have refuses : k.Refuses (frame.x 0).toNat (decide (frame.x 8 = sysSendblk)) := by
    rcases errno with ⟨_, nobody⟩ | ⟨full, waiting⟩
    · rcases nobody with zero | high | gone
      · exact .inl zero
      · exact .inr (.inl high)
      · exact .inr (.inr (.inl gone))
    · refine .inr (.inr (.inr ⟨waiting, ?_⟩))
      by_cases blocking : frame.x 8 = sysSendblk
      · right
        by_contra user
        rw [sendblk_arm spaces k mem frame blocking, if_pos ⟨some_, valid, user⟩] at goes_on
        simp only [read, refused, if_pos full] at goes_on
        cases goes_on
      · exact .inl (decide_eq_false blocking)
  have positive : ¬ e.toUInt64.toInt64 < 0 := errno_positive e (errno.imp And.left And.left)
  rw [promised_send_failed k frame nr, misreports_send spaces k mem frame nr]
  refine ⟨fun below => absurd below positive, fun fine => absurd (.inr ⟨valid, ?_, refuses⟩) fine⟩
  rw [read]
  rfl

-- A call that is answered at once keeps the ABI exactly if it is not one of
-- those that misreport.
theorem answer_keeps_iff (unused : ∀ tid, (k.table tid).ttbr0Pa = 0 → (k.table tid).exitCode = 0) (value : UInt64)
    (answer : Answer spaces k mem frame value) (goes_on : blockingCall spaces k mem frame = none) :
    Promised k frame k value ↔ ¬ Misreports spaces k mem frame := by
  cases answer with
  | write _ nr =>
      obtain ⟨promised, fine⟩ := promised_other spaces k k mem frame value (.inl nr)
      exact ⟨fun _ => fine, fun _ => promised⟩
  | unknown nr =>
      simp only [List.mem_cons, List.not_mem_nil, or_false, not_or] at nr
      obtain ⟨write, exit_, yield_, send, recv, recvblk, sendblk, sleep, code, wait⟩ := nr
      have below : enosys.toUInt64.toInt64 < 0 := by decide
      simp only [Promised, Misreports, write, exit_, yield_, send, recv, recvblk, sendblk, sleep, code, wait, or_self,
        if_false, not_false_eq_true, iff_true]
      exact below
  | sendNothing nr nothing =>
      rw [promised_send_failed k frame nr, misreports_send spaces k mem frame nr]
      exact ⟨fun below => absurd below (by decide), fun fine => absurd (.inl nothing) fine⟩
  | sendBadBuffer nr some_ bad =>
      have below : efault.toUInt64.toInt64 < 0 := by decide
      rw [promised_send_failed k frame nr, misreports_send spaces k mem frame nr]
      refine ⟨fun _ => ?_, fun _ => below⟩
      rintro (nothing | ⟨valid, _⟩)
      · exact some_ nothing
      · rw [bad] at valid
        cases valid
  | sendRefused nr msg e some_ valid read refused =>
      exact send_refused_keeps spaces k mem frame nr msg e valid some_ read refused goes_on
  | recvNoBuffer nr nothing =>
      exact recv_no_buffer_keeps spaces k mem frame nr _ (by decide) fun both => both.1 nothing
  | recvBadBuffer nr bad =>
      refine recv_no_buffer_keeps spaces k mem frame nr _ (by decide) fun both => ?_
      rw [bad] at both
      cases both.2
  | recvNothing nr bufLen e some_ valid refused =>
      obtain ⟨errno, nothing⟩ := ipc_recv_errno k bufLen e refused
      rw [promised_recv_failed k frame (.inl nr), misreports_recv spaces k mem frame nr]
      exact ⟨fun below => absurd below (errno_positive e (.inr errno)), fun fine => absurd ⟨some_, valid, nothing⟩ fine⟩
  | sleepNothing nr _ =>
      obtain ⟨promised, fine⟩ := promised_other spaces k k mem frame 0 (.inr (.inr (.inl nr)))
      exact ⟨fun _ => fine, fun _ => promised⟩
  | sleepNobody nr _ =>
      obtain ⟨promised, fine⟩ := promised_other spaces k k mem frame einval.toUInt64 (.inr (.inr (.inl nr)))
      exact ⟨fun _ => fine, fun _ => promised⟩
  | waited nr code ended =>
      obtain ⟨inside, _, same⟩ := (Kernel.try_wait_ok k _ code).mp ended
      rw [promised_wait k k frame _ nr, misreports_wait spaces k mem frame nr]
      refine ⟨fun promised nobody => ?_, fun fine nobody => absurd nobody fine⟩
      have below := promised nobody
      rcases nobody with zero | high | fresh
      · omega
      · omega
      · rw [same, unused _ fresh] at below
        exact absurd below (by decide)
  | waitRefused nr e refused other =>
      obtain ⟨errno, range⟩ := try_wait_errno k _ e refused other
      have nobody : k.NoSuchTask (frame.x 0).toNat := range.elim .inl fun high => .inr (.inl high)
      rw [promised_wait k k frame _ nr, misreports_wait spaces k mem frame nr]
      exact ⟨fun promised => absurd (promised nobody) (errno_positive e (.inl errno)), fun fine => absurd nobody fine⟩

theorem sent_keeps (nr : frame.x 8 = sysSend ∨ frame.x 8 = sysSendblk) (some_ : frame.x 2 ≠ 0) (msg : List UInt8)
    (after : Kernel) (read : spaces.readUser k mem (frame.x 1).toNat (min (frame.x 2).toNat msgMax) = some msg)
    (accepted : k.ipcSend (frame.x 0).toNat msg = .ok after) :
    KeepsAbi k frame (.resumed after mem (frame.setX 0 0)) ∧ ¬ Misreports spaces k mem frame := by
  obtain ⟨inside, live, empty, rfl⟩ := (Kernel.ipc_send_ok k _ msg after).mp accepted
  have length := read_user_length spaces k mem _ _ msg read
  have bytes : 0 < (frame.x 2).toNat := by
    refine Nat.pos_of_ne_zero fun zero => some_ ?_
    exact UInt64.toNat_inj.mp zero
  have deposited : k.Deposited (k.deposit (frame.x 0).toNat msg) (frame.x 0).toNat := by
    refine ⟨empty, ?_⟩
    rw [Kernel.deposit_table, if_pos rfl]
    simp only [length, msgMax]
    omega
  rw [keeps_stays_iff k frame _ mem (frame.setX 0 0) (Kernel.SameTask.deposit k _ _).dispatches rfl,
    promised_send k _ frame _ nr, misreports_send spaces k mem frame nr]
  refine ⟨⟨fun _ => TrapFrame.set_x_same _ _ _, fun no => absurd deposited no⟩, ?_⟩
  rintro (nothing | ⟨_, _, zero | high | gone | ⟨full, _⟩⟩)
  · exact some_ nothing
  · omega
  · omega
  · exact live gone
  · exact full empty

theorem count_not_negative (n : Nat) (small : n ≤ msgMax) :
    0 ≤ (UInt64.ofNat n).toInt64 ∧ (UInt64.ofNat n).toNat = n := by
  have all : ∀ n < 33, 0 ≤ (UInt64.ofNat n).toInt64 ∧ (UInt64.ofNat n).toNat = n := by decide
  exact all n (Nat.lt_succ_of_le small)

theorem received_keeps (nr : frame.x 8 = sysRecv ∨ frame.x 8 = sysRecvblk) (msg : List UInt8) (sender : Nat)
    (after : Kernel) (mem' : UserMem) (took : k.ipcRecv (min (frame.x 1).toNat msgMax) = .ok (msg, sender, after)) :
    KeepsAbi k frame (.resumed after mem' ((frame.setX 0 (UInt64.ofNat msg.length)).setX 1 (UInt64.ofNat sender))) ∧
      ¬ Misreports spaces k mem frame := by
  obtain ⟨inside, some_, bytes, _, rfl⟩ := (Kernel.ipc_recv_ok k _ msg sender after).mp took
  have small : msg.length ≤ msgMax := by
    rw [bytes, List.length_take]
    omega
  have count : msg.length = min (k.table k.currentTid).mailboxLen (min (frame.x 1).toNat msgMax) := by
    rw [bytes, List.length_take, Vector.length_toList]
    omega
  obtain ⟨above, exact_⟩ := count_not_negative msg.length small
  have emptied : ((k.drain k.currentTid).table k.currentTid).mailboxLen = 0 := by
    rw [Kernel.drain_table]
    simp only [if_true, inside, and_self]
    unfold Kernel.wakesSender
    split_ifs
    · rfl
    · rfl
  have delivered : k.Delivered (k.drain k.currentTid) := ⟨Nat.ne_of_gt some_, emptied⟩
  have forth : ((frame.setX 0 (UInt64.ofNat msg.length)).setX 1 (UInt64.ofNat sender)).x 0 = UInt64.ofNat msg.length := by
    rw [TrapFrame.set_x_other _ 1 0 _ (by decide), TrapFrame.set_x_same]
  rw [keeps_stays_iff k frame (k.drain k.currentTid) mem'
    ((frame.setX 0 (UInt64.ofNat msg.length)).setX 1 (UInt64.ofNat sender)) (Kernel.SameTask.drain k _).dispatches rfl,
    promised_recv k _ frame _ nr, forth]
  refine ⟨⟨fun _ => ⟨above, exact_.trans count⟩, fun no => absurd delivered no⟩, ?_⟩
  rcases nr with nr | nr
  · rw [misreports_recv spaces k mem frame nr]
    rintro ⟨_, _, zero | high | empty⟩
    · omega
    · omega
    · omega
  · exact misreports_recvblk spaces k mem frame nr

theorem sub_four_ne (a : UInt64) : a - 4 ≠ a := by
  intro same
  have moved := congrArg UInt64.toNat same
  rw [UInt64.toNat_sub] at moved
  have low := a.toNat_lt
  have four : (4 : UInt64).toNat = 4 := rfl
  omega

theorem same_mail_promised (k' : Kernel) (mail : SameMail k k') (x0 : UInt64)
    (nr : frame.x 8 = sysSendblk ∨ frame.x 8 = sysRecvblk) (below : x0.toInt64 < 0) : Promised k frame k' x0 := by
  have count : ∀ tid, (k'.table tid).mailboxLen = (k.table tid).mailboxLen := fun tid => congrArg (·.2.1) (mail tid)
  rcases nr with nr | nr
  · have nothing : ¬ k.Deposited k' (frame.x 0).toNat := fun both => both.2 ((count _).trans both.1)
    rw [promised_send k k' frame x0 (.inr nr)]
    exact ⟨fun no => absurd no nothing, fun _ => below⟩
  · have nothing : ¬ k.Delivered k' := fun both => both.1 ((count _).symm.trans both.2)
    rw [promised_recv k k' frame x0 (.inr nr)]
    exact ⟨fun no => absurd no nothing, fun _ => below⟩

theorem refused_dispatches (call : Call)
    (refused : ((blockedKernel k call).blockAndSwitch (call.saved frame)).1 = false) :
    (((blockedKernel k call).blockAndSwitch (call.saved frame)).2.1.editTask k.currentTid call.unmark).dispatches =
      k.dispatches := by
  have marked : (blockedKernel k call).dispatches = k.dispatches := (Kernel.SameTask.edit k _ _).dispatches
  rw [(Kernel.SameTask.edit _ _ _).dispatches]
  unfold Kernel.blockAndSwitch at refused ⊢
  split_ifs at refused ⊢
  · exact marked
  · have blocked : ((blockedKernel k call).blockCurrent (call.saved frame)).dispatches = (blockedKernel k call).dispatches :=
      (Kernel.SameTask.edit (blockedKernel k call) _ _).dispatches
    rw [← marked, ← blocked]
    rcases Kernel.switch_cases ((blockedKernel k call).blockCurrent (call.saved frame)) (call.saved frame) with
      ⟨_, same⟩ | ⟨next, _, _, _, same⟩ | ⟨_, _, _, _, _, same⟩
    · rw [same]
    · rw [same]
      exact (Kernel.SameTask.vanished _ next).dispatches
    · rw [same] at refused
      cases refused

theorem blocking_kind (call : Call) (asks : call.Asks frame) :
    (call.rewinds = true ∧ (frame.x 8 = sysSendblk ∨ frame.x 8 = sysRecvblk)) ∨
      (call.rewinds = true ∧ frame.x 8 = sysWait) ∨ (call.rewinds = false ∧ frame.x 8 = sysSleep) := by
  cases call with
  | recvblk => exact .inl ⟨rfl, .inr asks.1⟩
  | sendblk _ => exact .inl ⟨rfl, .inl asks.1⟩
  | sleep _ => exact .inr (.inr ⟨rfl, asks.1⟩)
  | wait _ => exact .inr (.inl ⟨rfl, asks.1⟩)

theorem refused_answer (call : Call) (rewinds : call.rewinds = true) :
    (call.refused frame).elr = frame.elr ∧ (call.refused frame).x 0 = (-Kernel.eagain).toUInt64 := by
  cases call with
  | sleep _ => cases rewinds
  | recvblk => exact ⟨UInt64.sub_add_cancel _ _, TrapFrame.set_x_same _ _ _⟩
  | sendblk _ => exact ⟨UInt64.sub_add_cancel _ _, TrapFrame.set_x_same _ _ _⟩
  | wait _ => exact ⟨UInt64.sub_add_cancel _ _, TrapFrame.set_x_same _ _ _⟩

section
variable (confined : ∀ tid, (k.table tid).state ≠ .exited → 0 < tid ∧ tid < maxTasks)
  (rooted : ∀ tid, (k.table tid).state ≠ .exited → (k.table tid).ttbr0Pa ≠ 0)
  (alive : k.currentTid ≠ 0 → (k.table k.currentTid).state ≠ .exited)

include rooted in
theorem blocking_fine (call : Call) (blocks : blockingCall spaces k mem frame = some call) :
    ¬ Misreports spaces k mem frame := by
  obtain ⟨asks, awaits⟩ := blocking_asks spaces k mem frame call blocks
  cases call with
  | recvblk => exact misreports_recvblk spaces k mem frame asks.1
  | sendblk dst =>
      obtain ⟨nr, rfl, inside, some_, _⟩ := asks
      rw [misreports_send spaces k mem frame (.inr nr)]
      rintro (nothing | ⟨_, _, zero | high | gone | ⟨_, again | nobody⟩⟩)
      · exact some_ nothing
      · omega
      · omega
      · exact awaits.1 gone
      · simp [nr] at again
      · rw [sendblk_arm spaces k mem frame nr, if_neg (fun all => all.2.2 nobody)] at blocks
        cases blocks
  | sleep ticks => exact (promised_other spaces k k mem frame 0 (.inr (.inr (.inl asks.1)))).2
  | wait child =>
      obtain ⟨nr, rfl, inside⟩ := asks
      rw [misreports_wait spaces k mem frame nr]
      rintro (zero | high | fresh)
      · omega
      · omega
      · exact absurd fresh (rooted _ awaits)

include confined alive rooted in
theorem block_keeps (call : Call) (blocks : blockingCall spaces k mem frame = some call) :
    KeepsAbi k frame (blockFor k mem frame call) := by
  obtain ⟨asks, awaits⟩ := blocking_asks spaces k mem frame call blocks
  have fine := blocking_fine spaces k mem frame rooted call blocks
  have mail := block_mail k mem frame call
  intro x0 found
  have waits : frame.x 8 = sysWait → Promised k frame (blockFor k mem frame call).kernel x0 := fun nr => by
    rw [misreports_wait spaces k mem frame nr] at fine
    rw [promised_wait k _ frame x0 nr]
    exact fun nobody => absurd nobody fine
  rcases blocking_kind frame call asks with ⟨rewinds, ipc⟩ | ⟨_, wait⟩ | ⟨_, sleep⟩
  · by_cases finds : ((blockedKernel k call).blockAndSwitch (call.saved frame)).1 = true
    · -- Back on its svc, the call has still to be made.
      have user := block_finds_user k frame call finds
      have live := alive user
      have low := (confined _ live).2
      obtain ⟨_, lives, _⟩ := block_finds k frame call live low finds
      have saved := block_saves_own k frame call live low finds
      simp only [blockFor, finds, if_true] at found
      rw [result_switched k frame _ mem _ (block_dispatches k frame call finds) lives, saved,
        call.saved_rewinds frame rewinds, if_neg (sub_four_ne frame.elr)] at found
      cases found
    · have refused := Bool.eq_false_iff.mpr finds
      obtain ⟨forth, value⟩ := refused_answer frame call rewinds
      have answer := found
      rw [block_refused k mem frame call refused,
        result_stays k frame _ mem _ (refused_dispatches k frame call refused) forth, value] at answer
      cases answer
      exact same_mail_promised k frame _ mail _ ipc (by decide)
  · exact waits wait
  · exact (promised_other spaces k _ mem frame x0 (.inr (.inr (.inl sleep)))).1

include confined alive in
theorem yields_iff (user : k.currentTid ≠ 0) : (k.saveAndSwitch frame).1 = true ↔ k.Yields := by
  have low := (confined _ (alive user)).2
  have waiting : (k.saveCurrent frame).ready =
      (k.ready ++ if (k.table k.currentTid).state = .running then [k.currentTid] else []).take maxTasks := by
    have short := Kernel.ready_length_le k
    rw [Kernel.save_ready]
    by_cases runs : (k.table k.currentTid).state = .running
    · rw [if_pos ⟨user, low, runs⟩, if_pos runs]
    · rw [if_neg (fun all => runs all.2.2), if_neg runs, List.append_nil, List.take_of_length_le short]
  have live : ∀ tid, ((k.saveCurrent frame).task tid).isSome = true ↔ tid < maxTasks ∧ (k.table tid).state ≠ .exited := by
    intro tid
    have left : Kernel.Leaves k.currentTid k (k.saveCurrent frame) := Kernel.Leaves.save k frame
    rw [Kernel.task_isSome]
    exact ⟨fun both => ⟨both.1, fun gone => both.2 (left.ended tid gone).1⟩,
      fun both => ⟨both.1, Kernel.Spares.save k frame tid both.2⟩⟩
  rw [Kernel.saveAndSwitch, Kernel.switch_succeeds, waiting, Kernel.Yields]
  constructor
  · rintro ⟨next, rest, first, some_⟩
    obtain ⟨rest, whole⟩ := (Kernel.take_cons 7 _ next).mp ⟨rest, first⟩
    exact ⟨user, next, by rw [whole]; rfl, (live next).mp some_⟩
  · rintro ⟨_, next, head, some_⟩
    obtain ⟨rest, whole⟩ := List.head?_eq_some_iff.mp head
    obtain ⟨rest, first⟩ := (Kernel.take_cons 7 _ next).mpr ⟨rest, whole⟩
    exact ⟨next, rest, first, (live next).mpr some_⟩

include confined alive in
-- A yield that gives the core away comes back with whatever was in x0.
theorem yield_keeps_iff (nr : frame.x 8 = sysYield) :
    KeepsAbi k frame (svcYield k mem frame) ↔ ¬ Misreports spaces k mem frame := by
  rw [misreports_yield spaces k mem frame nr]
  by_cases user : k.currentTid ≠ 0
  · have exact_ := yields_iff k frame confined alive user
    by_cases switched : (k.saveAndSwitch frame).1 = true
    · have yields := exact_.mp switched
      have live := alive user
      have saved : ((k.saveAndSwitch frame).2.1.table k.currentTid).saved = frame := by
        rw [Kernel.saveAndSwitch, Kernel.SameSaved.switch _ _ k.currentTid, Kernel.save_table,
          if_pos ⟨rfl, user, (confined _ live).2, live⟩]
      have lives : ((k.saveAndSwitch frame).2.1.table k.currentTid).state ≠ .exited :=
        (Kernel.Spares.save k frame).trans (Kernel.Spares.switch _ frame) k.currentTid live
      have moved : (k.saveAndSwitch frame).2.1.dispatches ≠ k.dispatches := by
        have left := Kernel.switch_dispatches (k.saveCurrent frame) frame switched
        rwa [(Kernel.SameTask.save k frame).dispatches] at left
      simp only [KeepsAbi, svcYield, if_pos user, switched, if_true]
      rw [result_switched k frame _ mem _ moved lives, saved, if_pos rfl]
      refine ⟨fun keeps both => both.1 ?_, fun fine x0 found => ?_⟩
      · exact (promised_yield k _ frame _ nr).mp (keeps _ rfl)
      · rw [promised_yield k _ frame x0 nr, ← Option.some.inj found]
        by_contra kept
        exact fine ⟨kept, yields⟩
    · have refused := Bool.eq_false_iff.mpr switched
      have unloaded : (k.saveAndSwitch frame).2.2 = frame := Kernel.switch_fails_frame _ _ refused
      have same : (k.saveAndSwitch frame).2.1.dispatches = k.dispatches :=
        ((save_onward k k frame (Kernel.SameTask.refl k) (Kernel.Leaves.refl k) confined).2.1 refused).dispatches
      have outcome : svcYield k mem frame = .resumed (k.saveAndSwitch frame).2.1 mem (frame.setX 0 0) := by
        simp only [svcYield, if_pos user, refused, Bool.false_eq_true, if_false, unloaded]
      rw [outcome, keeps_stays_iff k frame _ mem (frame.setX 0 0) same rfl, promised_yield k _ frame _ nr]
      exact ⟨fun _ both => switched (exact_.mpr both.2), fun _ => TrapFrame.set_x_same _ _ _⟩
  · have outcome : svcYield k mem frame = .resumed k mem (frame.setX 0 0) := by
      simp only [svcYield, if_neg user, Bool.false_eq_true, if_false]
    rw [outcome, keeps_stays_iff k frame k mem (frame.setX 0 0) rfl rfl, promised_yield k k frame _ nr]
    exact ⟨fun _ both => user both.2.1, fun _ => TrapFrame.set_x_same _ _ _⟩

include confined rooted alive in
theorem handled_keeps_iff (unused : ∀ tid, (k.table tid).ttbr0Pa = 0 → (k.table tid).exitCode = 0) {outcome : Outcome}
    (handled : Handled spaces k mem frame outcome) : KeepsAbi k frame outcome ↔ ¬ Misreports spaces k mem frame := by
  cases handled with
  | answered value answer goes_on =>
      rw [keeps_answered_iff]
      exact answer_keeps_iff spaces k mem frame unused value answer goes_on
  | readFault nr unread _ =>
      refine ⟨fun _ => ?_, fun _ _ found => (by cases found)⟩
      by_cases write : frame.x 8 = sysWrite
      · exact (promised_other spaces k k mem frame 0 (.inl write)).2
      · obtain ⟨some_, none_⟩ := unread write
        rw [misreports_send spaces k mem frame (nr.resolve_left write), none_]
        rintro (nothing | ⟨_, no, _⟩)
        · exact some_ nothing
        · cases no
  | writeFault nr bufLen msg sender after took _ =>
      obtain ⟨inside, some_, _⟩ := (Kernel.ipc_recv_ok k _ msg sender after).mp took
      refine ⟨fun _ => ?_, fun _ _ found => (by cases found)⟩
      rcases nr with nr | nr
      · rw [misreports_recv spaces k mem frame nr]
        rintro ⟨_, _, zero | high | empty⟩
        · omega
        · omega
        · omega
      · exact misreports_recvblk spaces k mem frame nr
  | sent nr some_ msg after read accepted _ =>
      obtain ⟨keeps, fine⟩ := sent_keeps spaces k mem frame nr some_ msg after read accepted
      exact ⟨fun _ => fine, fun _ => keeps⟩
  | received nr msg sender after mem' took _ _ =>
      obtain ⟨keeps, fine⟩ := received_keeps spaces k mem frame nr msg sender after mem' took
      exact ⟨fun _ => fine, fun _ => keeps⟩
  | yielded nr => exact yield_keeps_iff spaces k mem frame confined alive nr
  | blocking call blocks =>
      exact ⟨fun _ => blocking_fine spaces k mem frame rooted call blocks,
        fun _ => block_keeps spaces k mem frame confined rooted alive call blocks⟩
  | exited nr =>
      have other : frame.x 8 = sysWrite ∨ frame.x 8 = sysExit ∨ frame.x 8 = sysSleep ∨ frame.x 8 = sysExitCode := by
        rcases nr with nr | nr
        · exact .inr (.inl nr)
        · exact .inr (.inr (.inr nr))
      exact ⟨fun _ => (promised_other spaces k k mem frame 0 other).2,
        fun _ x0 _ => (promised_other spaces k _ mem frame x0 other).1⟩

end

end

namespace Machine

-- A slot no task was ever spawned in has no exit code.
def Unused (m : Machine) : Prop := ∀ tid, (m.kernel.table tid).ttbr0Pa = 0 → (m.kernel.table tid).exitCode = 0

-- The result of a served svc is the documented one.
def FollowsAbi (spaces : AddressSpaces) (m : Machine) : Event → Prop
  | .trap t =>
      m.serves t = true → isSvc t = true →
        KeepsAbi m.kernel (t.frame m.cpu.spEl1) (m.handled spaces .lowerAArch64 t)
  | _ => True

def MisreportsAbi (spaces : AddressSpaces) (m : Machine) : Event → Prop
  | .trap t =>
      m.serves t = true ∧ isSvc t = true ∧ Misreports spaces m.kernel (m.memAt t) (t.frame m.cpu.spEl1)
  | _ => False

section
variable (spaces : AddressSpaces) (address : Static → UInt64) (m : Machine)

theorem unused_step (grounded : m.Grounded) (unused : m.Unused) (event : Event) : (m.next spaces address event).Unused := by
  intro tid fresh
  by_cases old : ∀ args, event ≠ .spawn args
  · have left := next_leaves spaces address m event old
    rw [left.space] at fresh
    by_cases gone : (m.kernel.table tid).state = .exited
    · rw [(left.ended tid gone).2]
      exact unused tid fresh
    · exact absurd fresh (grounded.rooted tid gone)
  · obtain ⟨args, born⟩ : ∃ args, event = .spawn args := by
      simpa only [ne_eq, not_forall, not_not] using old
    subst born
    by_cases enabled : m.enabled (.spawn args) = true
    · rw [next_enabled spaces address m _ enabled] at fresh ⊢
      simp only [fire] at fresh ⊢
      rcases spawn_cases m.kernel args with ⟨_, same⟩ | ⟨slot, _, _, _, same⟩
      · rw [same] at fresh ⊢
        exact unused tid fresh
      · rw [same, Kernel.enqueue_table, Kernel.set_task_table] at fresh ⊢
        by_cases here : tid = slot
        · rw [here, Function.update_self] at fresh
          exact absurd fresh args.has_root
        · rw [Function.update_of_ne here] at fresh ⊢
          exact unused tid fresh
    · rw [next_disabled spaces address m _ enabled] at fresh ⊢
      exact unused tid fresh

theorem follows_abi_iff (grounded : m.Grounded) (unused : m.Unused) (event : Event) :
    m.FollowsAbi spaces event ↔ ¬ m.MisreportsAbi spaces event := by
  cases event with
  | trap t =>
      by_cases served : m.serves t = true ∧ isSvc t = true
      · have down := ((m.serves_iff t).mp served.1).2
        have exact_ := handled_keeps_iff spaces m.kernel (m.memAt t) (t.frame m.cpu.spEl1) grounded.confined
          grounded.rooted (grounded.current down) unused (svc_handled spaces m.kernel (m.memAt t) (t.frame m.cpu.spEl1))
        rw [← m.handled_svc spaces t served.2] at exact_
        refine ⟨fun follows misreports => exact_.mp (follows served.1 served.2) misreports.2.2, fun fine _ _ => ?_⟩
        exact exact_.mpr fun misreports => fine ⟨served.1, served.2, misreports⟩
      · exact ⟨fun _ misreports => served ⟨misreports.1, misreports.2.1⟩, fun _ serves call => absurd ⟨serves, call⟩ served⟩
  | _ => exact ⟨fun _ => id, fun _ => trivial⟩

end

-- In every run, each call's result is the documented one exactly if the call is
-- not one of those that misreport.
theorem result_follows_abi_iff (spaces : AddressSpaces) (address : Static → UInt64) (cpu : Cpu) (events : List Event) :
    Run.Along (next spaces address) (fun m event => m.FollowsAbi spaces event ↔ ¬ m.MisreportsAbi spaces event)
      (boot spaces cpu) events := by
  refine Run.along_of_invariant (next spaces address) (fun _ _ => True) _ (fun m => m.Grounded ∧ m.Unused) ?_ _ events
    ⟨boot_grounded spaces cpu, fun _ _ => rfl⟩ (Run.along_of_forall _ _ (fun _ _ => trivial) _ _)
  rintro m event ⟨grounded, unused⟩ _
  exact ⟨⟨grounded_step spaces address m grounded event, unused_step spaces address m grounded unused event⟩,
    follows_abi_iff spaces m grounded unused event⟩

-- One task finds its own mailbox empty, and recv answers 11 bytes.
def emptyRecv : List Event := [.spawnAt 1 one_root, .drop false, .enter fun _ => 0]

theorem empty_recv_answers_count :
    ¬ Run.Along (next flat fun _ => 0) (FollowsAbi flat) (boot flat coldCpu)
      (emptyRecv ++ [.trap (Trap.svc (registers sysRecv [0x200000, 8]) userCodeVa)]) := by
  intro along
  obtain ⟨_, follows, _⟩ := (Run.along_append _ _ _ _ _).mp along
  have promised := follows (by decide +kernel) (by decide +kernel) 11 (by decide +kernel)
  have empty : ¬ (((Run.exec (next flat fun _ => 0) (boot flat coldCpu) emptyRecv).kernel.table 1).mailboxLen ≠ 0) := by
    decide +kernel
  have below := ((promised_recv _ _ _ _ (.inl rfl)).mp promised).2 fun delivered => empty delivered.1
  exact absurd below (by decide)

end Machine

end Opal
