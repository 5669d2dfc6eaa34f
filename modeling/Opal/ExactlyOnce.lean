import Opal.Abi
import Opal.Arrival

set_option autoImplicit false

namespace Opal

-- The histories beside the machine. base has, for each task, how many letters
-- it had sent and been delivered when its last call was first made.
structure Ledger where
  pend : Nat → Option Pending
  mails : Mails
  base : Nat → Nat × Nat

def Ledger.none : Ledger := ⟨fun _ => .none, .none, fun _ => (0, 0)⟩

def Mails.counts (mails : Mails) (tid : Nat) : Nat × Nat :=
  (mails.post.sentBy (mails.owner tid), mails.post.deliveredTo (mails.owner tid))

-- The trap of a task whose recvblk, sendblk or wait is outstanding makes that
-- call once more.
def Ledger.retries (ledger : Ledger) (tid : Nat) : Bool := (ledger.pend tid).any (·.call.rewinds)

theorem Ledger.retries_iff (ledger : Ledger) (tid : Nat) :
    ledger.retries tid = true ↔ ∃ p, ledger.pend tid = some p ∧ p.call.rewinds = true := by
  unfold Ledger.retries
  cases ledger.pend tid with
  | none => simp
  | some p => simp

namespace Machine

def bases (m : Machine) (event : Event) (ledger : Ledger) : Nat → Nat × Nat :=
  match event with
  | .trap t =>
      if m.serves t = true ∧ t.kind = .synchronous ∧ ledger.retries m.kernel.currentTid = false then
        Function.update ledger.base m.kernel.currentTid (ledger.mails.counts m.kernel.currentTid)
      else ledger.base
  | _ => ledger.base

def ledger (spaces : AddressSpaces) (m : Machine) (event : Event) (after : Machine) (ledger : Ledger) : Ledger where
  pend := m.pends spaces event after ledger.pend
  mails := m.mails spaces event after ledger.mails
  base := m.bases event ledger

end Machine

-- The first min(len, 32) bytes of a sender's buffer.
def Trap.message (t : Trap) : List UInt8 :=
  (List.range (min (t.x 2).toNat msgMax)).map fun i => t.space ((t.x 1).toNat + i)

-- No outstanding call has taken effect yet.
def Unspent (ledger : Ledger) : Prop :=
  ∀ tid p, ledger.pend tid = some p → p.call.rewinds = true → ledger.mails.counts tid = ledger.base tid

section
variable (spaces : AddressSpaces) (k : Kernel) (mem : UserMem) (frame : TrapFrame)

theorem send_refusal (refused : Int64 → Outcome) (nr : frame.x 8 = sysSend ∨ frame.x 8 = sysSendblk) (some_ : frame.x 2 ≠ 0)
    (effects : ipcEffect spaces k mem frame = .nothing) (k' : Kernel) (mem' : UserMem) (frame' : TrapFrame)
    (outcome : svcSendOr spaces k mem frame refused = .resumed k' mem' frame') :
    frame'.x 0 = efault.toUInt64 ∨
      ∃ msg e, isValidUserRange (frame.x 1).toNat (min (frame.x 2).toNat msgMax) = true ∧
        spaces.readUser k mem (frame.x 1).toNat (min (frame.x 2).toNat msgMax) = some msg ∧
        k.ipcSend (frame.x 0).toNat msg = .error e ∧ refused e = .resumed k' mem' frame' := by
  unfold svcSendOr at outcome
  unfold ipcEffect at effects
  rw [if_pos nr, if_neg some_] at effects
  dsimp only at outcome
  rw [if_neg some_] at outcome
  by_cases invalid : isValidUserRange (frame.x 1).toNat (min (frame.x 2).toNat msgMax) = false
  · rw [if_pos invalid, reply] at outcome
    cases outcome
    exact .inl (TrapFrame.set_x_same _ _ _)
  · rw [if_neg invalid] at outcome effects
    cases read : spaces.readUser k mem (frame.x 1).toNat (min (frame.x 2).toNat msgMax) with
    | none =>
        rw [read] at outcome
        cases outcome
    | some msg =>
        rw [read] at outcome effects
        dsimp only at outcome effects
        cases sent : k.ipcSend (frame.x 0).toNat msg with
        | ok after =>
            rw [sent] at effects
            cases effects
        | error e =>
            rw [sent] at outcome
            exact .inr ⟨msg, e, Bool.eq_true_of_not_eq_false invalid, rfl, sent, outcome⟩

theorem send_error (dst : Nat) (msg : List UInt8) (e : Int64) (refused : k.ipcSend dst msg = .error e) : e.toUInt64 ≠ 0 := by
  rcases ipc_send_errno k dst msg e refused with ⟨rfl, _⟩ | ⟨rfl, _⟩
  · decide
  · decide

theorem unsent_answer (nr : frame.x 8 = sysSend ∨ frame.x 8 = sysSendblk) (some_ : frame.x 2 ≠ 0)
    (effects : ipcEffect spaces k mem frame = .nothing) (awake : fallsAsleep spaces k mem frame = none) (k' : Kernel)
    (mem' : UserMem) (frame' : TrapFrame) (outcome : handleSvcFromEl0 spaces k mem frame = .resumed k' mem' frame') :
    frame'.x 0 ≠ 0 := by
  have bad : efault.toUInt64 ≠ 0 := by decide
  rcases nr with send | sendblk
  · have arm : handleSvcFromEl0 spaces k mem frame = svcSend spaces k mem frame := by
      rw [handleSvcFromEl0, send]
      rfl
    rw [arm, svcSend] at outcome
    rcases send_refusal spaces k mem frame _ (.inl send) some_ effects k' mem' frame' outcome with
      same | ⟨msg, e, _, _, refused, same⟩
    · rw [same]
      exact bad
    · rw [reply] at same
      cases same
      rw [TrapFrame.set_x_same]
      exact send_error k _ msg e refused
  · have arm : handleSvcFromEl0 spaces k mem frame = svcSendblk spaces k mem frame := by
      rw [handleSvcFromEl0, sendblk]
      rfl
    rw [arm, svcSendblk] at outcome
    rcases send_refusal spaces k mem frame _ (.inr sendblk) some_ effects k' mem' frame' outcome with
      same | ⟨msg, e, valid, read, refused, same⟩
    · rw [same]
      exact bad
    · have nonzero := send_error k _ msg e refused
      split_ifs at same with full kernel
      · rw [reply] at same
        cases same
        rw [TrapFrame.set_x_same]
        exact nonzero
      · have blocks : blockingCall spaces k mem frame = some (.sendblk (frame.x 0).toNat) := by
          rw [sendblk_arm spaces k mem frame sendblk, if_pos ⟨some_, valid, kernel⟩, read]
          dsimp only
          rw [refused]
          exact if_pos full
        have stays : ¬ ((blockedKernel k (.sendblk (frame.x 0).toNat)).blockAndSwitch
            (Call.saved frame (.sendblk (frame.x 0).toNat))).1 = true := by
          intro finds
          rw [fallsAsleep, blocks] at awake
          dsimp only at awake
          rw [if_pos finds] at awake
          cases awake
        have whole := handled_blocks spaces k mem frame _ blocks
        rw [arm, svcSendblk] at whole
        rw [whole, blockFor, if_neg stays] at outcome
        cases outcome
        change (TrapFrame.setX _ 0 (-Kernel.eagain).toUInt64).x 0 ≠ 0
        rw [TrapFrame.set_x_same]
        decide
      · rw [reply] at same
        cases same
        rw [TrapFrame.set_x_same]
        exact nonzero

end

section
variable (spaces : AddressSpaces) (k : Kernel) (mem : UserMem) (frame : TrapFrame)

theorem asleep_effect (p : Pending) (sleeps : fallsAsleep spaces k mem frame = some p) :
    ipcEffect spaces k mem frame = .nothing := by
  obtain ⟨blocks, finds, _, _⟩ := falls_asleep k mem frame spaces p sleeps
  have outcome : (handleSvcFromEl0 spaces k mem frame).kernel.dispatches ≠ k.dispatches := by
    rw [handled_blocks spaces k mem frame _ blocks, blockFor, if_pos finds]
    exact block_dispatches k frame p.call finds
  cases effects : ipcEffect spaces k mem frame with
  | nothing => rfl
  | posted dst body =>
      rw [(effect_posted spaces k mem frame dst body effects).2] at outcome
      exact absurd (Kernel.SameTask.deposit k dst body).dispatches outcome
  | taken =>
      obtain ⟨_, _, _, _, answered⟩ := effect_taken spaces k mem frame effects
      rw [answered] at outcome
      exact absurd (Kernel.SameTask.drain k k.currentTid).dispatches outcome
  | lost =>
      rw [(effect_lost spaces k mem frame effects).2] at outcome
      exact absurd (Kernel.SameTask.drain k k.currentTid).dispatches outcome

theorem kill_memory : (killTaskFromEl0 spaces k mem frame).memory mem = mem := by
  unfold killTaskFromEl0
  dsimp only
  split_ifs <;> rfl

theorem tick_memory : (serviceTick k mem frame).memory mem = mem := by
  unfold serviceTick
  dsimp only
  split_ifs <;> rfl

theorem posts_message (t : Trap) (m : Machine) (sp : UInt64) (dst : Nat) (body : List UInt8)
    (posts : Posts spaces m.kernel (m.memAt t) (t.frame sp) dst body) : body = t.message := by
  have read := posts.read
  unfold AddressSpaces.readUser at read
  split_ifs at read
  rw [← Option.some.inj read, Trap.message, Machine.memAt, Function.update_self]
  rfl

end

-- What one event can do to the history of the mail.
inductive Moved (mails : Mails) : Mails → Prop where
  | still : Moved mails mails
  | born (fresh : Nat) : Moved mails { mails with lives := Function.update mails.lives fresh (mails.lives fresh + 1) }
  | put (letter : Letter (Nat × Nat) (List UInt8)) : Moved mails { mails with post := mails.post.put letter }
  | take (i : Nat × Nat) : Moved mails { mails with post := mails.post.take i }
  | drop (i : Nat × Nat) : Moved mails { mails with post := mails.post.drop i }

theorem mails_moved (spaces : AddressSpaces) (m : Machine) (event : Event) (after : Machine) (mails : Mails) :
    Moved mails (m.mails spaces event after mails) := by
  cases event with
  | spawn args =>
      simp only [Machine.mails]
      cases m.kernel.allocTask.1 with
      | none => exact .still
      | some fresh =>
          dsimp only
          split_ifs
          · exact .born fresh
          · exact .still
  | trap t =>
      by_cases both : m.serves t = true ∧ t.kind = .synchronous
      · by_cases call : isSvc t = true
        · rw [Machine.mails_sync spaces m mails t after both.1 both.2 call]
          cases ipcEffect spaces m.kernel (m.memAt t) (t.frame m.cpu.spEl1) with
          | nothing => exact .still
          | posted dst body => exact .put _
          | taken => exact .take _
          | lost => exact .drop _
        · rw [Machine.mails, if_pos both]
          dsimp only
          rw [if_neg call]
          split_ifs
          · exact .drop _
          · exact .still
      · rw [Machine.mails, if_neg both]
        exact .still
  | _ => exact .still

theorem moved_content (mails mails' : Mails) (moved : Moved mails mails') (i : Nat × Nat) (letter : Letter (Nat × Nat) (List UInt8))
    (holds : mails.post.content i = some letter) : mails'.post.content i = some letter ∨ mails'.post.content i = none := by
  cases moved with
  | still => exact .inl holds
  | born fresh => exact .inl holds
  | put other =>
      obtain ⟨n, lies, found, _⟩ := mails.post.content_some i letter holds
      have stays := mails.post.put_lies other i n lies
      refine .inl ?_
      change (mails.post.put other).content i = _
      by_cases free : mails.post.slot other.receiver = none
      · rw [Post.put_content _ other free]
        split_ifs with here
        · rw [← here, lies] at free
          cases free
        · exact holds
      · rw [Post.put, dif_neg free]
        exact holds
  | take who =>
      change (mails.post.take who).content i = _ ∨ (mails.post.take who).content i = _
      rw [Post.take_content]
      split_ifs
      · exact .inr rfl
      · exact .inl holds
  | drop who =>
      change (mails.post.drop who).content i = _ ∨ (mails.post.drop who).content i = _
      rw [Post.drop_content]
      split_ifs
      · exact .inr rfl
      · exact .inl holds

namespace Machine

section
variable (spaces : AddressSpaces) (address : Static → UInt64) (m : Machine) (mails : Mails)

theorem mails_fault (t : Trap) (after : Machine) (call : isSvc t = false) :
    (m.mails spaces (.trap t) after mails).post.sent = mails.post.sent ∧
      (m.mails spaces (.trap t) after mails).post.delivered = mails.post.delivered := by
  have other : ¬ isSvc t = true := by
    rw [call]
    exact Bool.noConfusion
  unfold Machine.mails
  dsimp only
  split_ifs
  · exact ⟨rfl, rfl⟩
  · exact ⟨rfl, rfl⟩
  · exact ⟨rfl, rfl⟩

-- Only a task's own trap changes how many letters it has sent and been
-- delivered.
theorem counts_other (event : Event) (after : Machine) (tid : Nat) (live : (m.kernel.table tid).state ≠ .exited)
    (other : ∀ t, event = .trap t → m.serves t = true ∧ t.kind = .synchronous → tid ≠ m.kernel.currentTid) :
    (m.mails spaces event after mails).counts tid = mails.counts tid := by
  cases event with
  | spawn args =>
      simp only [Machine.mails]
      rcases spawn_cases m.kernel args with ⟨full, _⟩ | ⟨fresh, free, _, gone, _⟩
      · rw [full]
      · rw [free]
        dsimp only
        split_ifs
        · have apart : tid ≠ fresh := fun here => live (here ▸ gone)
          have owner : Mails.owner { mails with lives := Function.update mails.lives fresh (mails.lives fresh + 1) } tid =
              mails.owner tid := by
            change (tid, Function.update mails.lives fresh _ tid) = (tid, mails.lives tid)
            rw [Function.update_of_ne apart]
          rw [Mails.counts, owner]
          rfl
        · rfl
  | trap t =>
      by_cases both : m.serves t = true ∧ t.kind = .synchronous
      · have apart : mails.owner m.kernel.currentTid ≠ mails.owner tid := fun here =>
          other t rfl both ((owner_inj mails _ _).mp here).symm
        by_cases call : isSvc t = true
        · rw [mails_sync spaces m mails t after both.1 both.2 call]
          cases ipcEffect spaces m.kernel (m.memAt t) (t.frame m.cpu.spEl1) with
          | nothing => rfl
          | posted dst body => exact Prod.ext (mails.post.put_sent_other _ _ apart) (mails.post.put_delivered_to _ _)
          | taken => exact Prod.ext (mails.post.take_sent_by _ _) (mails.post.take_delivered_other _ _ apart)
          | lost => rfl
        · rw [Machine.mails, if_pos both]
          dsimp only
          rw [if_neg call]
          split_ifs
          · rfl
          · rfl
      · rw [Machine.mails, if_neg both]
  | _ => rfl

end

section
variable (spaces : AddressSpaces) (m : Machine) (ledger : Ledger) (t : Trap) (after : Machine)

-- At its trap a task has sent and been delivered what it had when the call was
-- first made.
theorem base_now (unspent : Unspent ledger) (serves : m.serves t = true) (sync : t.kind = .synchronous) :
    (m.ledger spaces (.trap t) after ledger).base m.kernel.currentTid = ledger.mails.counts m.kernel.currentTid := by
  change m.bases (.trap t) ledger m.kernel.currentTid = _
  unfold bases
  dsimp only
  split_ifs with first
  · exact Function.update_self ..
  · have retries : ledger.retries m.kernel.currentTid = true := by
      by_contra no
      exact first ⟨serves, sync, Bool.eq_false_iff.mpr no⟩
    obtain ⟨p, waits, rewinds⟩ := (ledger.retries_iff _).mp retries
    exact (unspent _ p waits rewinds).symm

theorem base_other (event : Event) (tid : Nat)
    (other : ∀ t, event = .trap t → m.serves t = true ∧ t.kind = .synchronous → tid ≠ m.kernel.currentTid) :
    (m.ledger spaces event after ledger).base tid = ledger.base tid := by
  change m.bases event ledger tid = _
  cases event with
  | trap t =>
      unfold bases
      dsimp only
      split_ifs with first
      · exact Function.update_of_ne (other t rfl ⟨first.1, first.2.1⟩) ..
      · rfl
  | _ => rfl

theorem unspent_step (sleepers : Sleepers m.kernel ledger.pend) (unspent : Unspent ledger) (event : Event) :
    Unspent (m.ledger spaces event after ledger) := by
  intro tid p waits rewinds
  by_cases own : ∃ t, event = .trap t ∧ (m.serves t = true ∧ t.kind = .synchronous) ∧ tid = m.kernel.currentTid
  · obtain ⟨t, rfl, both, rfl⟩ := own
    change m.pends spaces (.trap t) after ledger.pend m.kernel.currentTid = some p at waits
    rw [pends_sync spaces m ledger.pend t after both.1 both.2, Function.update_self] at waits
    split_ifs at waits with call
    have effects := asleep_effect spaces m.kernel _ _ p waits
    have still : m.mails spaces (.trap t) after ledger.mails = ledger.mails := by
      rw [mails_sync spaces m ledger.mails t after both.1 both.2 call, effects]
    rw [base_now spaces m ledger t after unspent both.1 both.2]
    exact congrArg (Mails.counts · m.kernel.currentTid) still
  · have other : ∀ t, event = .trap t → m.serves t = true ∧ t.kind = .synchronous → tid ≠ m.kernel.currentTid :=
      fun t same both here => own ⟨t, same, both, here⟩
    have before : ledger.pend tid = some p := by
      rw [← waits]
      by_cases trapped : ∃ t, event = .trap t ∧ m.serves t = true ∧ t.kind = .synchronous
      · obtain ⟨t, rfl, both⟩ := trapped
        change _ = m.pends spaces (.trap t) after ledger.pend tid
        rw [pends_sync spaces m ledger.pend t after both.1 both.2, Function.update_of_ne (other t rfl both)]
      · exact (congrFun (pends_other spaces m ledger.pend event after fun t same both => trapped ⟨t, same, both⟩) tid).symm
    rw [base_other spaces m ledger after event tid other]
    exact (counts_other spaces m ledger.mails event after tid (sleepers.live tid p before) other).trans
      (unspent tid p before rewinds)

end

section
variable (spaces : AddressSpaces) (address : Static → UInt64) (m : Machine)

theorem deliver_memory (source : Source) (mem : UserMem) (t : Trap) (down : m.oops = false) :
    (m.deliver spaces address source mem t).mem =
      (handle spaces m.kernel mem (t.frame m.cpu.spEl1) t.kind source t.device).memory mem := by
  cases outcome : handle spaces m.kernel mem (t.frame m.cpu.spEl1) t.kind source t.device with
  | resumed k mem' frame => exact (deliver_resumed spaces address m source mem t down k mem' frame outcome).mem
  | toMonitor k => exact (deliver_to_monitor spaces address m source mem t down k outcome).mem
  | parked cause k =>
      have result : dispatched spaces m source mem t = (true, .parked cause k) := by
        rw [dispatched_normally spaces m source mem t down, outcome]
      have seen := (dispatch_arguments spaces address m source mem t).trans result
      simp only [deliver, seen, Outcome.memory]

theorem served_memory (t : Trap) (serves : m.serves t = true) :
    (m.next spaces address (.trap t)).mem = (m.handled spaces .lowerAArch64 t).memory (m.memAt t) := by
  obtain ⟨enabled, down⟩ := (m.serves_iff t).mp serves
  rw [next_enabled spaces address m _ enabled]
  exact deliver_memory spaces address m .lowerAArch64 (m.memAt t) t down

theorem served_el0 (t : Trap) (serves : m.serves t = true) (el0 : (m.next spaces address (.trap t)).mode = .el0) :
    ∃ k mem frame, m.handled spaces .lowerAArch64 t = .resumed k mem frame := by
  obtain ⟨enabled, down⟩ := (m.serves_iff t).mp serves
  rw [next_enabled spaces address m _ enabled] at el0
  change (m.deliver spaces address .lowerAArch64 (m.memAt t) t).mode = .el0 at el0
  cases outcome : m.handled spaces .lowerAArch64 t with
  | resumed k mem frame => exact ⟨k, mem, frame, rfl⟩
  | toMonitor k =>
      rw [(deliver_to_monitor spaces address m .lowerAArch64 (m.memAt t) t down k outcome).mode] at el0
      cases el0
  | parked cause k =>
      rw [(deliver_parked spaces address m .lowerAArch64 (m.memAt t) t down cause k outcome).1] at el0
      cases el0

theorem served_letter (t : Trap) (serves : m.serves t = true) (tid : Nat) :
    ((m.next spaces address (.trap t)).kernel.table tid).letter =
      ((m.handled spaces .lowerAArch64 t).kernel.table tid).letter := by
  obtain ⟨stack, kernel⟩ := served_kernel spaces address m t serves
  rw [kernel]

theorem quiet_memory (t : Trap) (call : isSvc t = false) :
    (m.handled spaces .lowerAArch64 t).memory (m.memAt t) = m.memAt t := by
  have trapped := m.handled_trapped spaces t
  generalize m.handled spaces .lowerAArch64 t = outcome at trapped
  cases trapped with
  | svc svc _ _ => exact absurd (svc.symm.trans call) (by decide)
  | fault _ _ => exact kill_memory spaces m.kernel _ _
  | tick _ _ => exact tick_memory m.kernel _ _
  | ignored _ _ => rfl
  | sError _ => rfl

end

-- The deposit of the letter a send asks for, in an empty mailbox.
structure Deposits (m : Machine) (ledger : Ledger) (t : Trap) (m' : Machine) (ledger' : Ledger) : Prop where
  sent : ledger'.mails.post.sent = ledger.mails.post.sent ++
    [⟨ledger.mails.owner m.kernel.currentTid, ledger.mails.owner (t.x 0).toNat, t.message⟩]
  empty : (m.kernel.table (t.x 0).toNat).letter = none
  lies : (m'.kernel.table (t.x 0).toNat).letter = some (m.kernel.currentTid, t.message)

-- A receive takes the letter addressed to its task out of the task's mailbox
-- and hands it over.
structure Collects (m : Machine) (ledger : Ledger) (t : Trap) (m' : Machine) (ledger' : Ledger) (n : Nat)
    (letter : Letter (Nat × Nat) (List UInt8)) : Prop where
  lay : ledger.mails.post.slot (ledger.mails.owner m.kernel.currentTid) = some n
  found : ledger.mails.post.sent[n]? = some letter
  addressed : letter.receiver = ledger.mails.owner m.kernel.currentTid
  held : (m.kernel.table m.kernel.currentTid).letter = some (letter.sender.1, letter.body)
  emptied : (m'.kernel.table m.kernel.currentTid).letter = none
  delivered : ledger'.mails.post.delivered = ledger.mails.post.delivered ++ [n]
  delivers : m.Delivers t (letter.body.take (min (t.x 1).toNat msgMax)) letter.sender.1 m'

-- A synchronous trap that is served, with the histories before and after it.
structure Faithful (spaces : AddressSpaces) (m : Machine) (ledger : Ledger) (t : Trap) (m' : Machine) (ledger' : Ledger) :
    Prop where
  -- An outstanding call is made again with the registers of the first time.
  again : ∀ p, ledger.pend m.kernel.currentTid = some p → p.call.rewinds = true →
    isSvc t = true ∧ t.x = p.frame.x ∧ t.pc = p.frame.elr
  -- In all the times it is made a call sends or is delivered one letter at most.
  once : (ledger'.mails.counts m.kernel.currentTid).1 + (ledger'.mails.counts m.kernel.currentTid).2 ≤
    (ledger'.base m.kernel.currentTid).1 + (ledger'.base m.kernel.currentTid).2 + 1
  -- A send or sendblk that completes answers 0 exactly if it has sent one.
  sends : isSvc t = true → t.x 8 = sysSend ∨ t.x 8 = sysSendblk → t.x 2 ≠ 0 →
    fallsAsleep spaces m.kernel (m.memAt t) (t.frame m.cpu.spEl1) = none → m'.mode = .el0 →
      (m'.cpu.x 0 = 0 ↔
        (ledger'.mails.counts m.kernel.currentTid).1 = (ledger'.base m.kernel.currentTid).1 + 1 ∧
          m.Deposits ledger t m' ledger') ∧
      (m'.cpu.x 0 ≠ 0 → (ledger'.mails.counts m.kernel.currentTid).1 = (ledger'.base m.kernel.currentTid).1)
  -- Nothing else sends a letter.
  posts : ledger'.mails.post.sent = ledger.mails.post.sent ∨
    isSvc t = true ∧ (t.x 8 = sysSend ∨ t.x 8 = sysSendblk) ∧ m'.mode = .el0 ∧ m'.cpu.x 0 = 0 ∧ m.Deposits ledger t m' ledger'
  -- A receive that finds a letter and returns has delivered it.
  receives : isSvc t = true → t.x 8 = sysRecv ∨ t.x 8 = sysRecvblk → m.kernel.currentTid ≠ 0 → t.x 1 ≠ 0 →
    isValidUserRange (t.x 0).toNat (min (t.x 1).toNat msgMax) = true →
    (m.kernel.table m.kernel.currentTid).letter ≠ none → m'.mode = .el0 → ∃ n letter, m.Collects ledger t m' ledger' n letter
  -- Nothing else delivers one.
  takes : ledger'.mails.post.delivered = ledger.mails.post.delivered ∨
    isSvc t = true ∧ (t.x 8 = sysRecv ∨ t.x 8 = sysRecvblk) ∧ ∃ n letter, m.Collects ledger t m' ledger' n letter

-- Any step at all.
structure Private (m : Machine) (ledger : Ledger) (event : Event) (m' : Machine) (ledger' : Ledger) : Prop where
  -- A message that lies in a mailbox stays there until the mailbox is empty.
  kept : ∀ tid letter, (m.kernel.table tid).letter = some letter →
    (m'.kernel.table tid).letter = some letter ∨ (m'.kernel.table tid).letter = none
  -- Letters are sent and delivered by the traps of a task alone.
  idle : (∀ t, event = .trap t → ¬ (m.serves t = true ∧ t.kind = .synchronous)) →
    ledger'.mails.post.sent = ledger.mails.post.sent ∧ ledger'.mails.post.delivered = ledger.mails.post.delivered
  -- A handler writes to user memory only what it delivers, in the task's own
  -- address space.
  quiet : ∀ t, event = .trap t → m.serves t = true → ledger'.mails.post.delivered = ledger.mails.post.delivered →
    m'.mem = m.memAt t
  others : ∀ t, event = .trap t → m.serves t = true → ∀ root, root ≠ m.kernel.ttbr0 → m'.mem root = m.mem root
  space : ∀ t, event = .trap t → m.serves t = true → m.kernel.currentTid ≠ 0 →
    m.kernel.ttbr0 = (m.kernel.table m.kernel.currentTid).ttbr0Pa

section
variable (spaces : AddressSpaces) (address : Static → UInt64) (m : Machine) (ledger : Ledger) (t : Trap)

theorem nothing_mails (both : m.serves t = true ∧ t.kind = .synchronous) (call : isSvc t = true)
    (effects : ipcEffect spaces m.kernel (m.memAt t) (t.frame m.cpu.spEl1) = .nothing) (after : Machine) :
    (m.ledger spaces (.trap t) after ledger).mails = ledger.mails := by
  change m.mails spaces (.trap t) after ledger.mails = _
  rw [mails_sync spaces m ledger.mails t after both.1 both.2 call, effects]

theorem posted_faithful (carried : Carried m.kernel ledger.mails) (both : m.serves t = true ∧ t.kind = .synchronous)
    (call : isSvc t = true) (dst : Nat) (body : List UInt8)
    (effects : ipcEffect spaces m.kernel (m.memAt t) (t.frame m.cpu.spEl1) = .posted dst body) :
    let after := m.next spaces address (.trap t)
    let ledger' := m.ledger spaces (.trap t) after ledger
    m.Deposits ledger t after ledger' ∧ after.mode = .el0 ∧ after.cpu.x 0 = 0 ∧
      ledger'.mails.counts m.kernel.currentTid =
        ((ledger.mails.counts m.kernel.currentTid).1 + 1, (ledger.mails.counts m.kernel.currentTid).2) ∧
        ledger'.mails.post.delivered = ledger.mails.post.delivered := by
  intro after ledger'
  obtain ⟨posts, outcome⟩ := effect_posted spaces m.kernel _ _ dst body effects
  have message := posts_message spaces t m m.cpu.spEl1 dst body posts
  have dst_ : dst = (t.x 0).toNat := posts.addressee
  have free := (carried.room_iff dst).mp posts.room
  have mails : ledger'.mails = { ledger.mails with
      post := ledger.mails.post.put ⟨ledger.mails.owner m.kernel.currentTid, ledger.mails.owner dst, body⟩ } := by
    change Machine.mails spaces m (.trap t) after ledger.mails = _
    rw [mails_sync spaces m ledger.mails t after both.1 both.2 call, effects]
  have resumed := served_resumed spaces address m t both.1 _ _ _ ((m.handled_svc spaces t call).trans outcome)
  have sent := ledger.mails.post.put_sent ⟨ledger.mails.owner m.kernel.currentTid, ledger.mails.owner dst, body⟩ free
  have counted := ledger.mails.post.put_sent_by ⟨ledger.mails.owner m.kernel.currentTid, ledger.mails.owner dst, body⟩ free
    (ledger.mails.owner m.kernel.currentTid)
  rw [if_pos rfl] at counted
  refine ⟨⟨?_, ?_, ?_⟩, ?_, ?_, ?_, ?_⟩
  · rw [mails, ← message, ← dst_]
    exact sent
  · rw [← dst_]
    exact (letter_none _).mpr posts.room
  · rw [← message, ← dst_, served_letter spaces address m t both.1, m.handled_svc spaces t call, outcome]
    exact letter_deposit m.kernel dst body posts.fits.1 posts.fits.2
  · rw [resumed.mode, resumeMode]
    exact if_pos (m.trap_pstate t ((m.serves_iff t).mp both.1).1)
  · rw [resumed.x, TrapFrame.set_x_same]
  · rw [mails]
    exact Prod.ext counted (ledger.mails.post.put_delivered_to _ _)
  · rw [mails]
    exact ledger.mails.post.put_delivered _ free

theorem taken_faithful (carried : Carried m.kernel ledger.mails) (both : m.serves t = true ∧ t.kind = .synchronous)
    (call : isSvc t = true) (effects : ipcEffect spaces m.kernel (m.memAt t) (t.frame m.cpu.spEl1) = .taken) :
    let after := m.next spaces address (.trap t)
    let ledger' := m.ledger spaces (.trap t) after ledger
    (∃ n letter, m.Collects ledger t after ledger' n letter) ∧ (t.x 8 = sysRecv ∨ t.x 8 = sysRecvblk) ∧
      ledger'.mails.counts m.kernel.currentTid =
        ((ledger.mails.counts m.kernel.currentTid).1, (ledger.mails.counts m.kernel.currentTid).2 + 1) ∧
        ledger'.mails.post.sent = ledger.mails.post.sent ∧
          ∀ root, root ≠ m.kernel.ttbr0 → after.mem root = m.mem root := by
  intro after ledger'
  obtain ⟨msg, mem', takes, wrote, outcome⟩ := effect_taken spaces m.kernel _ _ effects
  have mails : ledger'.mails = { ledger.mails with post := ledger.mails.post.take (ledger.mails.owner m.kernel.currentTid) } := by
    change Machine.mails spaces m (.trap t) after ledger.mails = _
    rw [mails_sync spaces m ledger.mails t after both.1 both.2 call, effects]
  have resumed := served_resumed spaces address m t both.1 _ _ _ ((m.handled_svc spaces t call).trans outcome)
  have root : (m.kernel.drain m.kernel.currentTid).ttbr0 = m.kernel.ttbr0 := (Kernel.SameTask.drain m.kernel _).root
  obtain ⟨letter, content⟩ : ∃ letter, ledger.mails.post.content (ledger.mails.owner m.kernel.currentTid) = some letter := by
    refine Option.ne_none_iff_exists'.mp fun empty => takes.full ?_
    exact (carried.room_iff _).mpr ((ledger.mails.post.content_none _).mp empty)
  obtain ⟨n, lay, found, addressed⟩ := ledger.mails.post.content_some _ letter content
  have held : (m.kernel.table m.kernel.currentTid).letter = some (letter.sender.1, letter.body) := by
    rw [carried.holds, content]
    rfl
  have delivers := taken_delivers spaces address m t both.1 call letter.sender.1 letter.body held effects
  refine ⟨⟨n, letter, lay, found, addressed, held, ?_, ?_, delivers⟩, takes.nr, ?_, ?_, fun other apart => ?_⟩
  · rw [served_letter spaces address m t both.1, m.handled_svc spaces t call, outcome]
    exact (drain_letter m.kernel _ takes.inside).trans (if_pos rfl)
  · rw [mails]
    exact ledger.mails.post.take_delivered _ n lay
  · rw [mails]
    have delivered := ledger.mails.post.take_delivered_to (ledger.mails.owner m.kernel.currentTid)
      (ledger.mails.owner m.kernel.currentTid) letter content
    rw [if_pos rfl] at delivered
    exact Prod.ext (ledger.mails.post.take_sent_by _ _) delivered
  · rw [mails]
    exact ledger.mails.post.take_sent _
  · unfold AddressSpaces.writeUser at wrote
    split_ifs at wrote
    rw [resumed.mem, ← Option.some.inj wrote, root, Function.update_of_ne apart, memAt, Function.update_of_ne apart]

-- A fault, and a call that loses a letter or leaves the mailboxes alone, send
-- and deliver nothing.
theorem otherwise_faithful (both : m.serves t = true ∧ t.kind = .synchronous)
    (other : isSvc t = true → ipcEffect spaces m.kernel (m.memAt t) (t.frame m.cpu.spEl1) = .nothing ∨
      ipcEffect spaces m.kernel (m.memAt t) (t.frame m.cpu.spEl1) = .lost) (after : Machine) :
    let ledger' := m.ledger spaces (.trap t) after ledger
    ledger'.mails.post.sent = ledger.mails.post.sent ∧ ledger'.mails.post.delivered = ledger.mails.post.delivered ∧
      ledger'.mails.counts m.kernel.currentTid = ledger.mails.counts m.kernel.currentTid ∧
        (m.handled spaces .lowerAArch64 t).memory (m.memAt t) = m.memAt t := by
  intro ledger'
  cases call : isSvc t with
  | true =>
      rcases other call with effects | effects
      · have still := nothing_mails spaces m ledger t both call effects after
        rw [still, m.handled_svc spaces t call]
        exact ⟨rfl, rfl, rfl, (effect_nothing spaces m.kernel _ _ effects).2⟩
      · have mails : ledger'.mails =
            { ledger.mails with post := ledger.mails.post.drop (ledger.mails.owner m.kernel.currentTid) } := by
          change Machine.mails spaces m (.trap t) after ledger.mails = _
          rw [mails_sync spaces m ledger.mails t after both.1 both.2 call, effects]
        rw [mails, m.handled_svc spaces t call, (effect_lost spaces m.kernel _ _ effects).2]
        exact ⟨rfl, rfl, rfl, rfl⟩
  | false =>
      obtain ⟨sent, delivered⟩ := mails_fault spaces m ledger.mails t after call
      refine ⟨sent, delivered, ?_, quiet_memory spaces m t call⟩
      have owner : ledger'.mails.owner m.kernel.currentTid = ledger.mails.owner m.kernel.currentTid := by
        change (m.mails spaces (.trap t) after ledger.mails).owner _ = _
        rw [Machine.mails, if_pos both]
        dsimp only
        rw [call, if_neg Bool.false_ne_true]
        split_ifs <;> rfl
      rw [Mails.counts, owner]
      refine Prod.ext ?_ ?_
      · change Post.sentBy (m.mails spaces (.trap t) after ledger.mails).post _ = _
        rw [Post.sentBy, sent]
        rfl
      · change Post.deliveredTo (m.mails spaces (.trap t) after ledger.mails).post _ = _
        rw [Post.deliveredTo, sent, delivered]
        rfl

end

-- What holds throughout a run.
structure Balanced (m : Machine) (ledger : Ledger) : Prop where
  grounded : m.Grounded
  sleepers : Sleepers m.kernel ledger.pend
  retries : m.Retries ledger.pend
  carried : Carried m.kernel ledger.mails
  unspent : Unspent ledger

section
variable (spaces : AddressSpaces) (address : Static → UInt64) (m : Machine) (ledger : Ledger) (balanced : m.Balanced ledger)
include balanced

theorem balanced_step (event : Event) (possible : m.Possible event) :
    (m.next spaces address event).Balanced (m.ledger spaces event (m.next spaces address event) ledger) where
  grounded := grounded_step spaces address m balanced.grounded event
  sleepers := sleepers_step spaces address m ledger.pend balanced.grounded balanced.sleepers event
  retries := retries_step spaces address m ledger.pend balanced.grounded balanced.sleepers balanced.retries event possible
  carried := carried_step spaces address m ledger.mails balanced.grounded balanced.carried event
  unspent := unspent_step spaces m ledger _ balanced.sleepers balanced.unspent event

theorem faithful_step (t : Trap) (possible : m.PossibleTrap t) (both : m.serves t = true ∧ t.kind = .synchronous) :
    m.Faithful spaces ledger t (m.next spaces address (.trap t))
      (m.ledger spaces (.trap t) (m.next spaces address (.trap t)) ledger) := by
  have base := base_now spaces m ledger t (m.next spaces address (.trap t)) balanced.unspent both.1 both.2
  have again : ∀ p, ledger.pend m.kernel.currentTid = some p → p.call.rewinds = true →
      isSvc t = true ∧ t.x = p.frame.x ∧ t.pc = p.frame.elr := by
    intro p waits rewinds
    obtain ⟨_, x, ⟨async, _⟩ | ⟨call, pc⟩⟩ := retry_trap m ledger.pend balanced.grounded balanced.sleepers balanced.retries t
      ((m.serves_iff t).mp both.1).2 possible p waits rewinds
    · exact absurd both.2 async
    · exact ⟨call, x, pc⟩
  by_cases posted : isSvc t = true ∧ ∃ dst body, ipcEffect spaces m.kernel (m.memAt t) (t.frame m.cpu.spEl1) = .posted dst body
  · obtain ⟨call, dst, body, effects⟩ := posted
    obtain ⟨deposits, el0, zero, counts, delivered⟩ :=
      posted_faithful spaces address m ledger t balanced.carried both call dst body effects
    have nr : t.x 8 = sysSend ∨ t.x 8 = sysSendblk := (effect_posted spaces m.kernel _ _ dst body effects).1.nr
    refine ⟨again, ?_, fun _ _ _ _ _ => ⟨⟨fun _ => ⟨?_, deposits⟩, fun _ => zero⟩, fun no => absurd zero no⟩,
      .inr ⟨call, nr, el0, zero, deposits⟩, fun _ recv => ?_, .inl delivered⟩
    · rw [counts, base]
      dsimp only
      omega
    · rw [counts, base]
    · exact absurd nr (not_send (t.frame m.cpu.spEl1) recv)
  by_cases taken : isSvc t = true ∧ ipcEffect spaces m.kernel (m.memAt t) (t.frame m.cpu.spEl1) = .taken
  · obtain ⟨call, effects⟩ := taken
    obtain ⟨collects, nr, counts, sent, _⟩ := taken_faithful spaces address m ledger t balanced.carried both call effects
    refine ⟨again, ?_, fun _ send => ?_, .inl sent, fun _ _ _ _ _ _ _ => collects, .inr ⟨call, nr, collects⟩⟩
    · rw [counts, base]
      dsimp only
      omega
    · exact absurd send (not_send (t.frame m.cpu.spEl1) nr)
  · have other : isSvc t = true → ipcEffect spaces m.kernel (m.memAt t) (t.frame m.cpu.spEl1) = .nothing ∨
        ipcEffect spaces m.kernel (m.memAt t) (t.frame m.cpu.spEl1) = .lost := by
      intro call
      cases effects : ipcEffect spaces m.kernel (m.memAt t) (t.frame m.cpu.spEl1) with
      | nothing => exact .inl rfl
      | lost => exact .inr rfl
      | posted dst body => exact absurd ⟨call, dst, body, effects⟩ posted
      | taken => exact absurd ⟨call, effects⟩ taken
    obtain ⟨sent, delivered, counts, _⟩ := otherwise_faithful spaces m ledger t both other (m.next spaces address (.trap t))
    refine ⟨again, ?_, fun call send some_ awake el0 => ?_, .inl sent, fun call recv user some_ valid holds el0 => ?_, .inl delivered⟩
    · rw [counts, base]
      omega
    · obtain ⟨k, mem, frame, outcome⟩ := served_el0 spaces address m t both.1 el0
      have resumed := served_resumed spaces address m t both.1 k mem frame outcome
      rw [m.handled_svc spaces t call] at outcome
      have quiet : ipcEffect spaces m.kernel (m.memAt t) (t.frame m.cpu.spEl1) = .nothing := by
        refine (other call).resolve_right fun lost => ?_
        rw [(effect_lost spaces m.kernel _ _ lost).2] at outcome
        cases outcome
      have answer := unsent_answer spaces m.kernel _ _ send some_ quiet awake k mem frame outcome
      rw [← resumed.x] at answer
      refine ⟨⟨fun no => absurd no answer, fun sends => ?_⟩, fun _ => ?_⟩
      · rw [counts, base] at sends
        omega
      · rw [counts, base]
    · obtain ⟨k, mem, frame, outcome⟩ := served_el0 spaces address m t both.1 el0
      rw [m.handled_svc spaces t call] at outcome
      obtain ⟨⟨sender, body⟩, held⟩ := Option.ne_none_iff_exists'.mp holds
      have inside := balanced.grounded.confined _ (balanced.grounded.current ((m.serves_iff t).mp both.1).2 user)
      have took := recv_finds m.kernel (min (t.x 1).toNat msgMax) inside sender body held
      have found := recv_effect_found spaces m.kernel (m.memAt t) (t.frame m.cpu.spEl1) recv some_ valid _ _ took
      rw [(effect_lost spaces m.kernel _ _ ((other call).resolve_left found)).2] at outcome
      cases outcome

theorem kept_step (event : Event) (tid : Nat) (pair : Nat × List UInt8) (holds : (m.kernel.table tid).letter = some pair) :
    ((m.next spaces address event).kernel.table tid).letter = some pair ∨
      ((m.next spaces address event).kernel.table tid).letter = none := by
  have after := carried_step spaces address m ledger.mails balanced.grounded balanced.carried event
  have moved := mails_moved spaces m event (m.next spaces address event) ledger.mails
  generalize m.mails spaces event (m.next spaces address event) ledger.mails = mails' at after moved
  rw [balanced.carried.holds] at holds
  obtain ⟨letter, content, same⟩ := Option.map_eq_some_iff.mp holds
  rw [after.holds]
  by_cases owner : mails'.owner tid = ledger.mails.owner tid
  · rw [owner]
    rcases moved_content ledger.mails mails' moved _ letter content with stays | gone
    · rw [stays]
      exact .inl (congrArg some same)
    · rw [gone]
      exact .inr rfl
  · cases moved with
    | born fresh =>
        -- The slot has a new task, whose mailbox is empty.
        have newer : ledger.mails.lives tid < Function.update ledger.mails.lives fresh (ledger.mails.lives fresh + 1) tid := by
          by_cases here : tid = fresh
          · rw [here, Function.update_self]
            exact Nat.lt_succ_self _
          · refine absurd ?_ owner
            change (tid, Function.update ledger.mails.lives fresh _ tid) = _
            rw [Function.update_of_ne here]
            rfl
        have empty := (ledger.mails.post.content_none _).mpr (balanced.carried.later tid _ newer)
        refine .inr ?_
        change Option.map _ (ledger.mails.post.content (tid, _)) = none
        rw [empty]
        rfl
    | _ => exact absurd rfl owner

-- No system call but a receive, and no other trap, writes to user memory.
theorem memory_step (t : Trap) (serves : m.serves t = true) :
    let ledger' := m.ledger spaces (.trap t) (m.next spaces address (.trap t)) ledger
    (ledger'.mails.post.delivered = ledger.mails.post.delivered → (m.next spaces address (.trap t)).mem = m.memAt t) ∧
      ∀ root, root ≠ m.kernel.ttbr0 → (m.next spaces address (.trap t)).mem root = m.mem root := by
  intro ledger'
  have memory := served_memory spaces address m t serves
  have elsewhere : ∀ root, root ≠ m.kernel.ttbr0 → m.memAt t root = m.mem root := fun root apart => Function.update_of_ne apart ..
  by_cases call : isSvc t = true
  · have sync : t.kind = .synchronous := by
      simp only [isSvc, decide_eq_true_eq] at call
      exact call.1
    cases effects : ipcEffect spaces m.kernel (m.memAt t) (t.frame m.cpu.spEl1) with
    | nothing =>
        rw [m.handled_svc spaces t call, (effect_nothing spaces m.kernel _ _ effects).2] at memory
        rw [memory]
        exact ⟨fun _ => rfl, elsewhere⟩
    | posted dst body =>
        rw [m.handled_svc spaces t call, (effect_posted spaces m.kernel _ _ dst body effects).2] at memory
        rw [memory]
        exact ⟨fun _ => rfl, elsewhere⟩
    | lost =>
        rw [m.handled_svc spaces t call, (effect_lost spaces m.kernel _ _ effects).2] at memory
        rw [memory]
        exact ⟨fun _ => rfl, elsewhere⟩
    | taken =>
        obtain ⟨⟨n, letter, collects⟩, _, _, _, others⟩ :=
          taken_faithful spaces address m ledger t balanced.carried ⟨serves, sync⟩ call effects
        refine ⟨fun same => ?_, others⟩
        have length := congrArg List.length (collects.delivered.symm.trans same)
        simp at length
  · rw [quiet_memory spaces m t (Bool.eq_false_iff.mpr call)] at memory
    rw [memory]
    exact ⟨fun _ => rfl, elsewhere⟩

theorem private_step (event : Event) :
    m.Private ledger event (m.next spaces address event) (m.ledger spaces event (m.next spaces address event) ledger) := by
  refine ⟨kept_step spaces address m ledger balanced event, fun other => ?_, ?_, ?_, ?_⟩
  · change (m.mails spaces event (m.next spaces address event) ledger.mails).post.sent = _ ∧
      (m.mails spaces event (m.next spaces address event) ledger.mails).post.delivered = _
    cases event with
    | spawn args =>
        simp only [Machine.mails]
        split
        · exact ⟨rfl, rfl⟩
        · split_ifs <;> exact ⟨rfl, rfl⟩
    | trap t =>
        rw [Machine.mails, if_neg (other t rfl)]
        exact ⟨rfl, rfl⟩
    | _ => exact ⟨rfl, rfl⟩
  · rintro t rfl serves
    exact (memory_step spaces address m ledger balanced t serves).1
  · rintro t rfl serves
    exact (memory_step spaces address m ledger balanced t serves).2
  · rintro t rfl serves user
    obtain ⟨enabled, down⟩ := (m.serves_iff t).mp serves
    exact balanced.grounded.space down user (trap_el0 m t enabled)

end

-- Every step of the run, with the histories before and after it.
def Exact (spaces : AddressSpaces) (address : Static → UInt64) (m : Machine) (ledger : Ledger) (event : Event) : Prop :=
  let m' := m.next spaces address event
  let ledger' := m.ledger spaces event m' ledger
  m.Private ledger event m' ledger' ∧
    ∀ t, event = .trap t → m.serves t = true ∧ t.kind = .synchronous → m.Faithful spaces ledger t m' ledger'

-- The mailboxes hold exactly the letters sent and neither delivered nor lost,
-- no letter is delivered twice, and an outstanding call has had no effect yet.
def Settled (k : Kernel) (ledger : Ledger) : Prop :=
  Carried k ledger.mails ∧ ledger.mails.post.delivered.Nodup ∧ Unspent ledger

theorem ipc_exactly_once (spaces : AddressSpaces) (address : Static → UInt64) (cpu : Cpu) (events : List Event)
    (possible : Run.Along (next spaces address) Possible (boot spaces cpu) events) :
    Run.Always (Run.recorded (next spaces address) (ledger spaces)) (fun state => Settled state.1.kernel state.2)
        (boot spaces cpu, Ledger.none) events ∧
      Run.Along (Run.recorded (next spaces address) (ledger spaces))
        (fun state event => Exact spaces address state.1 state.2 event) (boot spaces cpu, Ledger.none) events := by
  have along := Run.along_recorded _ (ledger spaces) _ (boot spaces cpu, Ledger.none) events possible
  have initial : (boot spaces cpu).Balanced Ledger.none :=
    ⟨boot_grounded spaces cpu, boot_sleepers spaces cpu, boot_retries spaces cpu, boot_carried spaces cpu,
      fun _ _ no => (by cases no)⟩
  refine ⟨Run.always_of_invariant _ _ (fun state => state.1.Balanced state.2) _ ?_ ?_ _ events initial along,
    Run.along_of_invariant _ _ _ (fun state => state.1.Balanced state.2) ?_ _ events initial along⟩
  · rintro ⟨m, books⟩ event balanced allowed
    exact balanced_step spaces address m books balanced event allowed
  · rintro ⟨m, books⟩ balanced
    exact ⟨balanced.carried, books.mails.post.once, balanced.unspent⟩
  · rintro ⟨m, books⟩ event balanced allowed
    refine ⟨balanced_step spaces address m books balanced event allowed,
      private_step spaces address m books balanced event, ?_⟩
    rintro t rfl both
    exact faithful_step spaces address m books balanced t allowed both

-- Two tasks: the one asleep in a recvblk gets what the other sends.
theorem ipc_exactly_once_pair :
    (Run.exec (next stackOnly fun _ => 0) (boot stackOnly coldCpu)
        (sendWakes (userStackTop - 16) ++ [receivesAgain (userStackTop - 16)])).cpu.x 1 = 2 ∧
      Run.Always (Run.recorded (next stackOnly fun _ => 0) (ledger stackOnly)) (fun state => Settled state.1.kernel state.2)
          (boot stackOnly coldCpu, Ledger.none) (sendWakes (userStackTop - 16) ++ [receivesAgain (userStackTop - 16)]) ∧
        Run.Along (Run.recorded (next stackOnly fun _ => 0) (ledger stackOnly))
          (fun state event => Exact stackOnly (fun _ => 0) state.1 state.2 event) (boot stackOnly coldCpu, Ledger.none)
          (sendWakes (userStackTop - 16) ++ [receivesAgain (userStackTop - 16)]) := by
  refine ⟨by rw [receivesAgain, next_direct]; decide +kernel,
    ipc_exactly_once stackOnly (fun _ => 0) coldCpu _ (received_possible _ ?_ ?_)⟩
  · rw [next_direct]
    decide +kernel
  · rw [next_direct]
    decide +kernel

end Machine

end Opal
