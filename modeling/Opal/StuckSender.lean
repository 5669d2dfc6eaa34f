import Opal.Mail
import Opal.Pending

set_option autoImplicit false

namespace Opal

-- Nobody sleeps in a sendblk that could complete or fail by now.
def SendersWoken : Kernel → (Nat → Option Pending) → Prop :=
  Asleep fun k _ p => ∀ dst, p.call = .sendblk dst → k.Full dst

theorem mail_length (a b : Task) (same : a.mail = b.mail) : a.mailboxLen = b.mailboxLen := congrArg (·.2.1) same

namespace Kernel

theorem Full.kept (k k' : Kernel) (tid : Nat) (full : k.Full tid)
    (alive : (k.table tid).state ≠ .exited → (k'.table tid).state ≠ .exited)
    (mail : (k'.table tid).mail = (k.table tid).mail) : k'.Full tid :=
  ⟨alive full.1, mail_length _ _ mail ▸ full.2⟩

theorem Full.deposit (k : Kernel) (tid dst : Nat) (data : List UInt8) (full : k.Full tid)
    (empty : (k.table dst).mailboxLen = 0) : (k.deposit dst data).Full tid := by
  have other : tid ≠ dst := fun here => full.2 (here ▸ empty)
  rw [Full, deposit_table, if_neg other]
  exact full

theorem Full.drain (k : Kernel) (tid dst : Nat) (other : tid ≠ k.currentTid) (inside : 0 < tid ∧ tid < maxTasks)
    (marked : (k.table tid).blockedSendDst = dst) (full : k.Full dst)
    (sleeps : ((k.drain k.currentTid).table tid).state = .blocked) : (k.drain k.currentTid).Full dst := by
  have apart : dst ≠ k.currentTid := by
    intro here
    rw [drain_table] at sleeps
    simp only [if_neg other, if_pos inside, wakesSender, marked, here, and_true] at sleeps
    split_ifs at sleeps with slept
    exact slept sleeps
  have emptied : ((k.drain k.currentTid).table dst).mailboxLen = (k.table dst).mailboxLen := by
    rw [drain_table]
    dsimp only
    rw [if_neg apart]
    unfold wakesSender
    split_ifs
    · rfl
    · rfl
    · rfl
  exact ⟨Spares.drain k _ dst full.1, emptied ▸ full.2⟩

end Kernel

section
variable (spaces : AddressSpaces) (k : Kernel) (mem : UserMem) (frame : TrapFrame)

-- A task still asleep in its sendblk still has a full mailbox before it,
-- unless that mailbox's task exits.
theorem handled_full {outcome : Outcome} (handled : Handled spaces k mem frame outcome) (tid dst : Nat)
    (other : tid ≠ k.currentTid) (inside : 0 < tid ∧ tid < maxTasks) (marked : (k.table tid).blockedSendDst = dst)
    (full : k.Full dst) (sleeps : (outcome.kernel.table tid).state = .blocked)
    (stays : dst = k.currentTid → ¬ (frame.x 8 = sysExit ∨ frame.x 8 = sysExitCode)) : outcome.kernel.Full dst := by
  cases handled with
  | answered _ _ _ => exact full
  | readFault _ _ _ => exact full
  | writeFault _ _ _ _ after took _ =>
      obtain ⟨_, _, _, _, rfl⟩ := (Kernel.ipc_recv_ok _ _ _ _ _).mp took
      exact full.drain k tid dst other inside marked sleeps
  | sent _ _ _ _ _ accepted _ =>
      obtain ⟨_, _, empty, rfl⟩ := (Kernel.ipc_send_ok _ _ _ _).mp accepted
      exact full.deposit k dst _ _ empty
  | received _ _ _ _ _ took _ _ =>
      obtain ⟨_, _, _, _, rfl⟩ := (Kernel.ipc_recv_ok _ _ _ _ _).mp took
      exact full.drain k tid dst other inside marked sleeps
  | yielded _ => exact full.kept k _ dst (yield_spares k mem frame dst) (yield_mail k mem frame dst)
  | blocking call _ => exact full.kept k _ dst (block_spares k mem frame call dst) (block_mail k mem frame call dst)
  | exited nr =>
      have apart : dst ≠ k.currentTid := fun here => stays here nr
      exact full.kept k _ dst ((exit_leaves spaces k mem frame).alive dst apart) (exit_mail spaces k mem frame dst)

end

namespace Machine

-- The step with which a task ends while another is asleep in a sendblk to it.
-- Saved are the head of the ready queue, and at an exit who is also marked as
-- waiting for it.
def StrandsSender (m : Machine) (pend : Nat → Option Pending) : Event → Prop
  | .trap t =>
      m.serves t = true ∧ t.kind = .synchronous ∧
        ∃ tid p, pend tid = some p ∧ p.call = .sendblk m.kernel.currentTid ∧
          (m.kernel.table tid).state = .blocked ∧ m.kernel.ready.head? ≠ some tid ∧
          (isSvc t = false ∨
            (t.x 8 = sysExit ∨ t.x 8 = sysExitCode) ∧ (m.kernel.table tid).waitingOn ≠ m.kernel.currentTid)
  | _ => False

section
variable (spaces : AddressSpaces) (address : Static → UInt64) (m : Machine) (pend : Nat → Option Pending)

theorem fire_full (event : Event) (quiet : event.exception = none) (dst : Nat) (full : m.kernel.Full dst) :
    (m.fire spaces address event).kernel.Full dst := by
  refine ⟨fire_spares spaces address m event quiet dst full.1, ?_⟩
  rcases fire_task spaces address m event quiet dst with same | ⟨gone, _⟩ | ⟨_, same⟩
  · rw [same]
    exact full.2
  · exact absurd gone full.1
  · rw [same]
    exact full.2

theorem senders_fresh (t : Trap) (call : isSvc t = true) (p : Pending) (dst : Nat)
    (sleeps : fallsAsleep spaces m.kernel (m.memAt t) (t.frame m.cpu.spEl1) = some p)
    (sends : p.call = .sendblk dst) : (m.handled spaces .lowerAArch64 t).kernel.Full dst := by
  obtain ⟨blocks, finds, _, _⟩ := falls_asleep m.kernel _ _ spaces p sleeps
  have full : m.kernel.Full dst := by
    rw [sends] at blocks
    exact (blocking_asks spaces m.kernel _ _ _ blocks).2
  rw [m.handled_svc spaces t call, handled_blocks _ _ _ _ _ blocks]
  exact full.kept m.kernel _ dst (block_spares m.kernel _ _ p.call dst) (block_mail m.kernel _ _ p.call dst)

-- Of the tasks that were asleep in a sendblk already, a step of the current
-- task's strands none.
theorem senders_others (grounded : m.Grounded) (sleepers : Sleepers m.kernel pend) (t : Trap)
    (serves : m.serves t = true) (sync : t.kind = .synchronous)
    (spared : ¬ m.StrandsSender pend (.trap t)) (tid : Nat) (p : Pending) (dst : Nat) (other : tid ≠ m.kernel.currentTid)
    (waits : pend tid = some p) (sends : p.call = .sendblk dst) (slept : (m.kernel.table tid).state = .blocked)
    (sleeps : ((m.handled spaces .lowerAArch64 t).kernel.table tid).state = .blocked) (full : m.kernel.Full dst) :
    (m.handled spaces .lowerAArch64 t).kernel.Full dst := by
  have left := handled_leaves spaces m (.trap t) _ t rfl
  have inside := grounded.confined tid (sleepers.live tid p waits)
  have marked : (m.kernel.table tid).blockedSendDst = dst := by
    have mark := sleepers.marked tid p waits slept
    rw [sends] at mark
    exact mark
  cases call : isSvc t with
  | true =>
      have handled := svc_handled spaces m.kernel (m.memAt t) (t.frame m.cpu.spEl1)
      rw [m.handled_svc spaces t call] at sleeps ⊢
      by_cases ends : dst = m.kernel.currentTid ∧ (t.x 8 = sysExit ∨ t.x 8 = sysExitCode)
      · obtain ⟨own, nr⟩ := ends
        have user := grounded.confined _ (own ▸ full.1)
        rw [handled_exits spaces m.kernel _ (t.frame m.cpu.spEl1) nr] at sleeps
        obtain ⟨_, waiting, head⟩ :=
          (exit_still_blocked spaces m.kernel _ _ tid inside other (Nat.ne_of_gt user.1)).mp sleeps
        exact absurd ⟨serves, sync, tid, p, waits, own ▸ sends, slept, head, .inr ⟨nr, waiting⟩⟩ spared
      · exact handled_full spaces m.kernel _ _ handled tid dst other inside marked full sleeps fun own nr => ends ⟨own, nr⟩
  | false =>
      rw [m.handled_fault spaces t sync call] at sleeps left ⊢
      by_cases own : dst = m.kernel.currentTid
      · have user := grounded.confined _ (own ▸ full.1)
        obtain ⟨_, head⟩ := (kill_still_blocked spaces m.kernel _ _ tid inside.2 other user).mp sleeps
        exact absurd ⟨serves, sync, tid, p, waits, own ▸ sends, slept, head, .inl call⟩ spared
      · exact full.kept m.kernel _ dst (left.alive dst own) (kill_mail spaces m.kernel _ _ dst own)

theorem strands_sender (grounded : m.Grounded) (sleepers : Sleepers m.kernel pend) (woken : SendersWoken m.kernel pend)
    (event : Event) (strands : m.StrandsSender pend event) :
    ¬ SendersWoken (m.next spaces address event).kernel (pends spaces m event (m.next spaces address event) pend) := by
  cases event with
  | trap t =>
      obtain ⟨serves, sync, tid, p, waits, sends, slept, head, ends⟩ := strands
      have full := woken tid p waits slept _ sends
      have user := grounded.confined _ full.1
      have inside := grounded.confined tid (sleepers.live tid p waits)
      have other : tid ≠ m.kernel.currentTid := by
        rintro rfl
        exact sleepers.awake p waits slept
      have stranded : ((m.handled spaces .lowerAArch64 t).kernel.table tid).state = .blocked ∧
          ((m.handled spaces .lowerAArch64 t).kernel.table m.kernel.currentTid).state = .exited := by
        cases call : isSvc t with
        | true =>
            obtain ⟨nr, waiting⟩ := ends.resolve_left (by rw [call]; exact fun no => (by cases no))
            rw [m.handled_svc spaces t call, handled_exits spaces m.kernel _ (t.frame m.cpu.spEl1) nr]
            exact ⟨(exit_still_blocked spaces m.kernel _ _ tid inside other (Nat.ne_of_gt user.1)).mpr ⟨slept, waiting, head⟩,
              (exit_ends spaces m.kernel _ _ user full.1).1⟩
        | false =>
            rw [m.handled_fault spaces t sync call]
            exact ⟨(kill_still_blocked spaces m.kernel _ _ tid inside.2 other user).mpr ⟨slept, head⟩,
              (kill_ends spaces m.kernel _ _ user full.1).1⟩
      obtain ⟨stack, kernel⟩ := served_kernel spaces address m t serves
      rw [kernel, pends_sync spaces m pend t _ serves sync]
      intro good
      exact (good tid p (by rw [Function.update_of_ne other]; exact waits) stranded.1 _ sends).1 stranded.2
  | _ => exact absurd strands id

theorem senders_step (grounded : m.Grounded) (sleepers : Sleepers m.kernel pend) (woken : SendersWoken m.kernel pend)
    (event : Event) :
    SendersWoken (m.next spaces address event).kernel (pends spaces m event (m.next spaces address event) pend) ↔
      ¬ m.StrandsSender pend event := by
  refine ⟨fun good strands => strands_sender spaces address m pend grounded sleepers woken event strands good,
    fun spared => ?_⟩
  refine asleep_step spaces address m pend _ event woken (fun _ _ _ _ full => full) ?_ ?_ ?_ ?_
  · exact fun quiet _ _ full dst sends => fire_full spaces address m event quiet dst (full dst sends)
  · exact fun mem frame _ _ full dst sends =>
      (full dst sends).kept m.kernel _ dst (tick_spares m.kernel mem frame dst) (tick_mail m.kernel mem frame dst)
  · exact fun t p _ call sleeps dst sends => senders_fresh spaces m t call p dst sleeps sends
  · rintro t rfl serves sync tid p other waits slept sleeps full dst sends
    exact senders_others spaces m pend grounded sleepers t serves sync spared tid p dst other waits sends slept sleeps
      (full dst sends)

end

-- No run of any length leaves a sender asleep whose sendblk could complete or
-- fail, exactly if no step of it is one that strands a sender.
theorem no_stuck_sender (spaces : AddressSpaces) (address : Static → UInt64) (cpu : Cpu) (events : List Event) :
    Run.Always (Run.recorded (next spaces address) (pends spaces))
        (fun state => SendersWoken state.1.kernel state.2) (boot spaces cpu, fun _ => none) events ↔
      Run.Along (Run.recorded (next spaces address) (pends spaces))
        (fun state event => ¬ state.1.StrandsSender state.2 event) (boot spaces cpu, fun _ => none) events := by
  refine Run.always_iff_along _ (fun _ _ => True) _ (fun state => state.1.Grounded ∧ Sleepers state.1.kernel state.2) _
    ?_ ?_ _ events ⟨boot_grounded spaces cpu, boot_sleepers spaces cpu⟩ (fun _ _ no => (by cases no))
    (Run.along_of_forall _ _ (fun _ _ => trivial) _ _)
  · rintro ⟨m, pend⟩ event ⟨grounded, sleepers⟩ _ _ _
    exact ⟨grounded_step spaces address m grounded event, sleepers_step spaces address m pend grounded sleepers event⟩
  · rintro ⟨m, pend⟩ event ⟨grounded, sleepers⟩ _ woken
    exact senders_step spaces address m pend grounded sleepers woken event

-- Task 1 has sent task 2 a message, blocks on the second, and task 2 exits
-- without having received.
def strandedSender : List Event :=
  [ .spawnAt 1 one_root, .spawnAt 2 two_root, .drop false, .enter fun _ => 0,
    .trap (Trap.svc (registers sysSend [2, 0x200000, 4]) userCodeVa),
    .trap (Trap.svc (registers sysSendblk [2, 0x200000, 4]) userCodeVa),
    .trap (Trap.svc (registers sysExit []) userCodeVa) ]

theorem exit_strands_sender :
    ¬ Run.Always (Run.recorded (next flat fun _ => 0) (pends flat))
        (fun state => SendersWoken state.1.kernel state.2) (boot flat coldCpu, fun _ => none) strandedSender := by
  intro always
  have last := Run.always_last _ _ _ _ always
  have machine := Run.exec_recorded (next flat fun _ => 0) (pends flat) (boot flat coldCpu, fun _ => none) strandedSender
  have outstanding : ((Run.exec (Run.recorded (next flat fun _ => 0) (pends flat)) (boot flat coldCpu, fun _ => none)
      strandedSender).2 1).map (·.call) = some (.sendblk 2) := by
    rw [next_direct]
    decide +kernel
  obtain ⟨p, waits, sends⟩ := Option.map_eq_some_iff.mp outstanding
  have full := last 1 p waits
  rw [machine, next_direct] at full
  exact absurd (full (by decide +kernel) 2 sends).1 (by decide +kernel)

end Machine

end Opal
