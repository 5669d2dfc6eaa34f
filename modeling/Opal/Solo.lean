import Opal.Transcript
import Opal.Abi
import Opal.Grounded

set_option autoImplicit false

namespace Opal

-- All that a task's program can see: registers, pc, PSTATE, SP_EL0 and the bytes
-- of its address space. No frame keeps SP_EL0.
structure View where
  x : Fin 31 → UInt64
  pc : UInt64
  pstate : UInt64
  sp : UInt64
  space : Nat → UInt8

def TrapFrame.view (frame : TrapFrame) (sp : UInt64) (space : Nat → UInt8) : View :=
  ⟨frame.x, frame.elr, frame.spsr, sp, space⟩

namespace View

-- A call that has returned with value in x0.
def told (v : View) (value : UInt64) : View := { v with x := Function.update v.x 0 value, pc := v.pc + 4 }

def toldMessage (v : View) (msg : List UInt8) (sender : Nat) : View :=
  { v with
    x := Function.update (Function.update v.x 0 (UInt64.ofNat msg.length)) 1 (UInt64.ofNat sender)
    pc := v.pc + 4
    space := fun a => if (v.x 0).toNat ≤ a ∧ a < (v.x 0).toNat + msg.length then msg.getD (a - (v.x 0).toNat) 0 else v.space a }

end View

-- What write answers depends on the call alone.
def writeAnswer (x : Fin 31 → UInt64) : UInt64 :=
  if x 0 ≠ 1 then ebadf.toUInt64
  else if (x 2).toNat > 256 then e2big.toUInt64
  else if isValidUserRange (x 1).toNat (x 2).toNat = false then efault.toUInt64
  else x 2

-- The calls whose answer depends on the other tasks.
def social : List UInt64 := [sysSend, sysRecv, sysRecvblk, sysSendblk, sysWait]

-- What a program that has made a call can find when it goes on. passed is a
-- yield that gave the core away, and retries is a call that waits to be made
-- again. exit has no answer.
inductive Reply (v : View) : View → Prop where
  | wrote (nr : v.x 8 = sysWrite) : Reply v (v.told (writeAnswer v.x))
  | yielded (nr : v.x 8 = sysYield) : Reply v (v.told 0)
  | passed (nr : v.x 8 = sysYield) : Reply v { v with pc := v.pc + 4 }
  | slept (nr : v.x 8 = sysSleep) : Reply v (v.told 0)
  | answered (nr : v.x 8 ∈ social) (value : UInt64) : Reply v (v.told value)
  | received (nr : v.x 8 = sysRecv ∨ v.x 8 = sysRecvblk) (msg : List UInt8) (sender : Nat)
      (short : msg.length ≤ min (v.x 1).toNat msgMax) : Reply v (v.toldMessage msg sender)
  | retries (nr : v.x 8 = sysRecvblk ∨ v.x 8 = sysSendblk ∨ v.x 8 = sysWait) : Reply v v
  | unknown (nr : v.x 8 ∉ [sysWrite, sysExit, sysYield, sysSleep, sysExitCode] ++ social) : Reply v (v.told enosys.toUInt64)

-- A call to which there is one answer. A yield leaves x0 as it was or clears it.
def Quiet (v : View) : Prop := v.x 8 ∉ social ∧ (v.x 8 = sysYield → v.x 0 = 0)

instance (v : View) : Decidable (Quiet v) := inferInstanceAs (Decidable (_ ∧ _))

-- The one thing that a quiet call leads to.
def View.after (v : View) : View :=
  if v.x 8 = sysWrite then v.told (writeAnswer v.x)
  else if v.x 8 = sysYield ∨ v.x 8 = sysSleep then v.told 0
  else v.told enosys.toUInt64

theorem View.told_same (v : View) (value : UInt64) (same : v.x 0 = value) : v.told value = { v with pc := v.pc + 4 } := by
  rw [told, ← same, Function.update_eq_self]

theorem quiet_reply (v after : View) (quiet : Quiet v) (reply : Reply v after) : after = v.after := by
  obtain ⟨alone, zero⟩ := quiet
  have apart : sysYield ≠ sysWrite ∧ sysSleep ≠ sysWrite := ⟨by decide, by decide⟩
  cases reply with
  | wrote nr => rw [View.after, if_pos nr]
  | yielded nr => rw [View.after, if_neg (nr ▸ apart.1), if_pos (.inl nr)]
  | passed nr => rw [View.after, if_neg (nr ▸ apart.1), if_pos (.inl nr), View.told_same v 0 (zero nr)]
  | slept nr => rw [View.after, if_neg (nr ▸ apart.2), if_pos (.inr nr)]
  | answered nr value => exact absurd nr alone
  | received nr msg sender short =>
      rcases nr with nr | nr
      · exact absurd (by rw [nr]; decide) alone
      · exact absurd (by rw [nr]; decide) alone
  | retries nr =>
      rcases nr with nr | nr | nr
      · exact absurd (by rw [nr]; decide) alone
      · exact absurd (by rw [nr]; decide) alone
      · exact absurd (by rw [nr]; decide) alone
  | unknown nr =>
      simp only [List.mem_append, List.mem_cons, List.not_mem_nil, or_false, not_or] at nr
      rw [View.after, if_neg nr.1.1, if_neg (not_or.mpr ⟨nr.1.2.2.1, nr.1.2.2.2.1⟩)]

-- What a handler that returns has done to the task it was entered for: that
-- task goes on as goes allows, now or with the context it has left, and no
-- other address space has changed.
structure Resumes (goes : View → Prop) (k : Kernel) (mem : UserMem) (sp : UInt64) (left : TrapFrame) (k' : Kernel)
    (mem' : UserMem) (frame' : TrapFrame) : Prop where
  here : k'.dispatches = k.dispatches → k'.currentTid = k.currentTid ∧ goes (frame'.view sp (mem' k.ttbr0))
  away : k'.dispatches ≠ k.dispatches →
    mem' = mem ∧ ((k'.table k.currentTid).state = .exited ∨ goes (left.view sp (mem k.ttbr0)))
  others : ∀ root, root ≠ k.ttbr0 → mem' root = mem root

namespace Resumes

variable {goes : View → Prop} {k : Kernel} {mem : UserMem} {sp : UInt64} {left : TrapFrame}

theorem stays (k' : Kernel) (mem' : UserMem) (frame' : TrapFrame) (same : Kernel.SameTask k k')
    (told : goes (frame'.view sp (mem' k.ttbr0))) (others : ∀ root, root ≠ k.ttbr0 → mem' root = mem root) :
    Resumes goes k mem sp left k' mem' frame' :=
  ⟨fun _ => ⟨same.current, told⟩, fun moved => absurd same.dispatches moved, others⟩

theorem switched (k' : Kernel) (frame' : TrapFrame) (moved : k'.dispatches ≠ k.dispatches)
    (told : (k'.table k.currentTid).state = .exited ∨ goes (left.view sp (mem k.ttbr0))) :
    Resumes goes k mem sp left k' mem frame' := ⟨fun same => absurd same moved, fun _ => ⟨rfl, told⟩, fun _ _ => rfl⟩

end Resumes

section
variable (spaces : AddressSpaces) (k : Kernel) (mem : UserMem) (sp : UInt64) (frame : TrapFrame)

-- Where the program stood when it made the call.
def called : View := ⟨frame.x, frame.elr - 4, frame.spsr, sp, mem k.ttbr0⟩

theorem called_told (value : UInt64) : (frame.setX 0 value).view sp (mem k.ttbr0) = (called k mem sp frame).told value := by
  simp only [TrapFrame.view, TrapFrame.setX, called, View.told, UInt64.sub_add_cancel]

theorem called_passed : frame.view sp (mem k.ttbr0) = { called k mem sp frame with pc := (called k mem sp frame).pc + 4 } := by
  simp only [TrapFrame.view, called, UInt64.sub_add_cancel]

theorem called_again (call : Call) (rewinds : call.rewinds = true) :
    (call.saved frame).view sp (mem k.ttbr0) = called k mem sp frame := by
  rw [call.saved_rewinds frame rewinds]
  rfl

theorem write_user_spaces (va : Nat) (bytes : List UInt8) (mem' : UserMem)
    (wrote : spaces.writeUser k mem va bytes = some mem') (root : UInt64) :
    mem' root =
      if root = k.ttbr0 then
        fun a => if va ≤ a ∧ a < va + bytes.length then bytes.getD (a - va) 0 else mem root a
      else mem root := by
  unfold AddressSpaces.writeUser at wrote
  split_ifs at wrote
  rw [← Option.some.inj wrote]
  by_cases here : root = k.ttbr0
  · rw [if_pos here, here, Function.update_self]
  · rw [if_neg here, Function.update_of_ne here]

theorem called_received (k' : Kernel) (root : k'.ttbr0 = k.ttbr0) (msg : List UInt8) (sender : Nat) (mem' : UserMem)
    (wrote : spaces.writeUser k' mem (frame.x 0).toNat msg = some mem') :
    ((frame.setX 0 (UInt64.ofNat msg.length)).setX 1 (UInt64.ofNat sender)).view sp (mem' k.ttbr0) =
      (called k mem sp frame).toldMessage msg sender := by
  rw [write_user_spaces spaces k' mem _ msg mem' wrote, if_pos root.symm]
  simp only [TrapFrame.view, TrapFrame.setX, called, View.toldMessage, UInt64.sub_add_cancel]
  rfl

theorem answer_reply (value : UInt64) (user : k.currentTid ≠ 0) (answer : Answer spaces k mem frame value)
    (other : frame.x 8 ≠ sysWrite) : Reply (called k mem sp frame) ((called k mem sp frame).told value) := by
  cases answer with
  | write value nr => exact absurd nr other
  | unknown nr =>
      refine .unknown fun member => nr ?_
      simp only [social, called, List.mem_append, List.mem_cons, List.not_mem_nil, or_false] at member ⊢
      tauto
  | sendNothing nr _ => exact .answered (by rcases nr with nr | nr <;> simp [called, nr, social]) _
  | sendBadBuffer nr _ _ => exact .answered (by rcases nr with nr | nr <;> simp [called, nr, social]) _
  | sendRefused nr _ _ _ _ _ _ => exact .answered (by rcases nr with nr | nr <;> simp [called, nr, social]) _
  | recvNoBuffer nr _ => exact .answered (by rcases nr with nr | nr <;> simp [called, nr, social]) _
  | recvBadBuffer nr _ => exact .answered (by rcases nr with nr | nr <;> simp [called, nr, social]) _
  | recvNothing nr _ _ _ _ _ => exact .answered (by simp [called, nr, social]) _
  | sleepNothing nr _ => exact .slept nr
  | sleepNobody nr kernel => exact absurd kernel user
  | waited nr _ _ => exact .answered (by simp [called, nr, social]) _
  | waitRefused nr _ _ _ => exact .answered (by simp [called, nr, social]) _

theorem write_goes_on (k' : Kernel) (mem' : UserMem) (frame' left : TrapFrame) (nr : frame.x 8 = sysWrite)
    (result : svcWrite spaces k mem frame = .resumed k' mem' frame') :
    Resumes (Reply (called k mem sp frame)) k mem sp left k' mem' frame' := by
  have told : ∀ value, writeAnswer frame.x = value →
      Reply (called k mem sp frame) ((frame.setX 0 value).view sp (mem k.ttbr0)) := by
    intro value is
    rw [called_told, ← is]
    exact .wrote nr
  unfold svcWrite reply at result
  dsimp only at result
  split_ifs at result with fd long bad
  · cases result
    exact .stays k mem _ (Kernel.SameTask.refl k) (told _ (if_pos fd)) fun _ _ => rfl
  · cases result
    exact .stays k mem _ (Kernel.SameTask.refl k) (told _ ((if_neg fd).trans (if_pos long))) fun _ _ => rfl
  · cases result
    exact .stays k mem _ (Kernel.SameTask.refl k) (told _ ((if_neg fd).trans ((if_neg long).trans (if_pos bad)))) fun _ _ => rfl
  · cases read : spaces.readUser k mem (frame.x 1).toNat (frame.x 2).toNat with
    | none =>
        rw [read] at result
        cases result
    | some bytes =>
        rw [read] at result
        cases result
        have count := read_user_length spaces k mem _ _ bytes read
        refine .stays k mem _ (Kernel.SameTask.refl k) (told _ ((if_neg fd).trans ((if_neg long).trans ((if_neg bad).trans ?_)))) fun _ _ => rfl
        rw [count, UInt64.ofNat_toNat]

theorem switch_fails_same (fails : (k.switchToNext frame).1 = false) : Kernel.SameTask k (k.switchToNext frame).2.1 := by
  rcases Kernel.switch_cases k frame with ⟨_, same⟩ | ⟨next, _, _, _, same⟩ | ⟨_, _, _, _, _, same⟩
  · rw [same]
    exact Kernel.SameTask.refl k
  · rw [same]
    exact Kernel.SameTask.vanished k next
  · rw [same] at fails
    cases fails

theorem save_fails_same (fails : (k.saveAndSwitch frame).1 = false) : Kernel.SameTask k (k.saveAndSwitch frame).2.1 :=
  (Kernel.SameTask.save k frame).trans (switch_fails_same (k.saveCurrent frame) frame fails)

theorem block_fails_same (fails : (k.blockAndSwitch frame).1 = false) : Kernel.SameTask k (k.blockAndSwitch frame).2.1 := by
  unfold Kernel.blockAndSwitch at fails ⊢
  by_cases kernel : k.currentTid = 0
  · rw [if_pos kernel]
    exact Kernel.SameTask.refl k
  · rw [if_neg kernel] at fails ⊢
    exact (Kernel.SameTask.edit k _ _).trans (switch_fails_same _ frame fails)

theorem yield_goes_on (k' : Kernel) (mem' : UserMem) (frame' : TrapFrame) (nr : frame.x 8 = sysYield)
    (result : svcYield k mem frame = .resumed k' mem' frame') :
    Resumes (Reply (called k mem sp frame)) k mem sp frame k' mem' frame' := by
  have saved : (k.saveCurrent frame).dispatches = k.dispatches := (Kernel.SameTask.save k frame).dispatches
  unfold svcYield at result
  dsimp only at result
  by_cases user : k.currentTid ≠ 0
  · rw [if_pos user] at result
    by_cases found : (k.saveAndSwitch frame).1 = true
    · rw [if_pos found] at result
      cases result
      refine .switched _ _ ?_ (.inr ?_)
      · rw [← saved]
        exact Kernel.switch_dispatches (k.saveCurrent frame) frame found
      · rw [called_passed]
        exact .passed nr
    · have failed := Bool.eq_false_iff.mpr found
      have unloaded : (k.saveAndSwitch frame).2.2 = frame := Kernel.switch_fails_frame _ _ failed
      rw [if_neg found, unloaded] at result
      cases result
      refine .stays _ mem _ (save_fails_same k frame failed) ?_ fun _ _ => rfl
      rw [called_told]
      exact .yielded nr
  · rw [if_neg user, if_neg (fun no => (by cases no))] at result
    cases result
    refine .stays k mem _ (Kernel.SameTask.refl k) ?_ fun _ _ => rfl
    rw [called_told]
    exact .yielded nr

theorem block_goes_on (call : Call) (blocks : blockingCall spaces k mem frame = some call) (k' : Kernel) (mem' : UserMem)
    (frame' : TrapFrame) (result : blockFor k mem frame call = .resumed k' mem' frame') :
    Resumes (Reply (called k mem sp frame)) k mem sp (call.saved frame) k' mem' frame' := by
  have nr : frame.x 8 = call.number := blocking_call_number spaces k mem frame call blocks
  -- Only sleep has its answer before it blocks.
  have told : Reply (called k mem sp frame) ((call.saved frame).view sp (mem k.ttbr0)) ∧
      Reply (called k mem sp frame) ((call.refused frame).view sp (mem k.ttbr0)) := by
    have refused : ∀ again : Call, again.rewinds = true → again.number ∈ social → frame.x 8 = again.number →
        Reply (called k mem sp frame) ((again.refused frame).view sp (mem k.ttbr0)) := by
      intro again rewinds among number
      have same : again.refused frame = frame.setX 0 (-Kernel.eagain).toUInt64 := by
        cases again with
        | sleep _ => cases rewinds
        | _ => simp only [Call.refused, UInt64.sub_add_cancel]
      rw [same, called_told]
      exact .answered (show frame.x 8 ∈ social from number ▸ among) _
    cases call with
    | recvblk => exact ⟨called_again k mem sp frame .recvblk rfl ▸ .retries (.inl nr), refused .recvblk rfl (by decide) nr⟩
    | sendblk dst =>
        exact ⟨called_again k mem sp frame (.sendblk dst) rfl ▸ .retries (.inr (.inl nr)), refused (.sendblk dst) rfl (by simp [Call.number, social]) nr⟩
    | wait child =>
        exact ⟨called_again k mem sp frame (.wait child) rfl ▸ .retries (.inr (.inr nr)), refused (.wait child) rfl (by simp [Call.number, social]) nr⟩
    | sleep ticks =>
        have slept : Reply (called k mem sp frame) ((frame.setX 0 0).view sp (mem k.ttbr0)) := by
          rw [called_told]
          exact .slept nr
        exact ⟨slept, slept⟩
  unfold blockFor at result
  dsimp only at result
  by_cases found : ((blockedKernel k call).blockAndSwitch (call.saved frame)).1 = true
  · rw [if_pos found] at result
    cases result
    exact .switched _ _ (block_dispatches k frame call found) (.inr told.1)
  · rw [if_neg found] at result
    cases result
    have marked : Kernel.SameTask k (blockedKernel k call) := Kernel.SameTask.edit k _ _
    have back := block_fails_same (blockedKernel k call) (call.saved frame) (Bool.eq_false_iff.mpr found)
    exact .stays _ mem _ ((marked.trans back).trans (Kernel.SameTask.edit _ _ _)) told.2 fun _ _ => rfl

theorem exit_goes_on (goes : View → Prop) (left : TrapFrame) (user : 0 < k.currentTid ∧ k.currentTid < maxTasks)
    (live : (k.table k.currentTid).state ≠ .exited) (k' : Kernel) (mem' : UserMem) (frame' : TrapFrame)
    (result : svcExit spaces k mem frame = .resumed k' mem' frame') : Resumes goes k mem sp left k' mem' frame' := by
  have gone := (exit_ends spaces k mem frame user live).1
  rw [result] at gone
  have same : (k.afterExit (frame.x 0).toInt64).dispatches = k.dispatches :=
    ((Kernel.SameTask.edit k _ _).trans (Kernel.SameTask.sweep _ _)).dispatches
  rw [exit_eq spaces k mem frame (Nat.ne_of_gt user.1)] at result
  dsimp only at result
  split_ifs at result with found
  cases result
  refine .switched _ _ ?_ (.inl gone)
  rw [← same]
  exact Kernel.switch_dispatches _ frame found

theorem kill_goes_on (goes : View → Prop) (left : TrapFrame) (user : 0 < k.currentTid ∧ k.currentTid < maxTasks)
    (live : (k.table k.currentTid).state ≠ .exited) (k' : Kernel) (mem' : UserMem) (frame' : TrapFrame)
    (result : killTaskFromEl0 spaces k mem frame = .resumed k' mem' frame') : Resumes goes k mem sp left k' mem' frame' := by
  have gone := (kill_ends spaces k mem frame user live).1
  rw [result] at gone
  have same : k.afterKill.dispatches = k.dispatches := (Kernel.SameTask.edit k _ _).dispatches
  rw [kill_eq spaces k mem frame user] at result
  dsimp only at result
  split_ifs at result with found
  cases result
  refine .switched _ _ ?_ (.inl gone)
  rw [← same]
  exact Kernel.switch_dispatches _ frame found

theorem tick_goes_on (k' : Kernel) (mem' : UserMem) (frame' : TrapFrame)
    (result : serviceTick k mem frame = .resumed k' mem' frame') :
    Resumes (fun after => after = frame.view sp (mem k.ttbr0)) k mem sp frame k' mem' frame' := by
  have woken : Kernel.SameTask k (onTick k).wakeSleepers := by
    have ticked : Kernel.SameTask k (onTick k) := ⟨rfl, rfl, rfl⟩
    exact ticked.trans (Kernel.SameTask.sweep (onTick k) _)
  unfold serviceTick at result
  dsimp only at result
  split_ifs at result with preempts found
  · cases result
    refine .switched _ _ ?_ (.inr rfl)
    have moved := Kernel.switch_dispatches ((onTick k).wakeSleepers.saveCurrent frame) frame found
    rw [(Kernel.SameTask.save (onTick k).wakeSleepers frame).dispatches, woken.dispatches] at moved
    exact moved
  · have failed := Bool.eq_false_iff.mpr found
    have unloaded : ((onTick k).wakeSleepers.saveAndSwitch frame).2.2 = frame := Kernel.switch_fails_frame _ _ failed
    rw [unloaded] at result
    cases result
    exact .stays _ mem _ (woken.trans (save_fails_same _ frame failed)) rfl fun _ _ => rfl
  · cases result
    exact .stays _ mem _ woken rfl fun _ _ => rfl

theorem svc_goes_on (t : Trap) (call : isSvc t = true) (user : 0 < k.currentTid ∧ k.currentTid < maxTasks)
    (live : (k.table k.currentTid).state ≠ .exited) (k' : Kernel) (mem' : UserMem) (frame' : TrapFrame)
    (result : handleSvcFromEl0 spaces k mem frame = .resumed k' mem' frame') :
    Resumes (Reply (called k mem sp frame)) k mem sp (leaving spaces k mem frame t) k' mem' frame' := by
  by_cases write : frame.x 8 = sysWrite
  · rw [handleSvcFromEl0, if_pos write] at result
    exact write_goes_on spaces k mem sp frame k' mem' frame' _ write result
  have handled := svc_handled spaces k mem frame
  rw [result] at handled
  generalize is : Outcome.resumed k' mem' frame' = outcome at handled
  cases handled with
  | answered value answer _ =>
      cases is
      refine .stays _ mem _ (Kernel.SameTask.refl k) ?_ fun _ _ => rfl
      rw [called_told]
      exact answer_reply spaces k mem sp frame value (Nat.ne_of_gt user.1) answer write
  | readFault _ _ _ => cases is
  | writeFault _ _ _ _ _ _ _ => cases is
  | sent nr _ msg after _ accepted _ =>
      cases is
      obtain ⟨_, _, _, rfl⟩ := (Kernel.ipc_send_ok _ _ _ _).mp accepted
      refine .stays _ mem _ (Kernel.SameTask.deposit k _ _) ?_ fun _ _ => rfl
      rw [called_told]
      exact .answered (by rcases nr with nr | nr <;> simp [called, nr, social]) _
  | received nr msg sender after mem'' took wrote _ =>
      cases is
      obtain ⟨_, _, rfl, _, rfl⟩ := (Kernel.ipc_recv_ok _ _ _ _ _).mp took
      have same := Kernel.SameTask.drain k k.currentTid
      refine .stays _ mem' _ same ?_ fun root other => ?_
      · rw [called_received spaces k mem sp frame _ same.root _ _ mem' wrote]
        exact .received nr _ _ (by simp [called])
      · rw [write_user_spaces spaces _ mem _ _ mem' wrote, if_neg (fun here => other (here.trans same.root))]
  | yielded nr =>
      have left : leaving spaces k mem frame t = frame := by
        simp only [leaving, call, yield_does_not_block spaces k mem frame nr, if_true]
      rw [left]
      exact yield_goes_on k mem sp frame k' mem' frame' nr is.symm
  | blocking call' blocks =>
      have left : leaving spaces k mem frame t = call'.saved frame := by simp only [leaving, call, blocks, if_true]
      rw [left]
      exact block_goes_on spaces k mem sp frame call' blocks k' mem' frame' is.symm
  | exited _ => exact exit_goes_on spaces k mem sp frame _ _ user live k' mem' frame' is.symm

end

end Opal
