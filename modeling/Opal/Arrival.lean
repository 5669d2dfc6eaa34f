import Opal.Letters
import Opal.Retry

set_option autoImplicit false

namespace Opal

-- Nobody sleeps in a recvblk with a message in its mailbox.
def ReceiversWoken : Kernel → (Nat → Option Pending) → Prop :=
  Asleep fun k tid p => p.call = .recvblk → (k.table tid).mailboxLen = 0

-- The letter with which a deposit has woken a task from its recvblk, until the
-- task next traps.
abbrev Arrived : Type := Nat → Option Nat

-- The histories beside the machine: outstanding calls, letters, arrivals.
structure Inbox where
  pend : Nat → Option Pending
  mails : Mails
  arrived : Arrived

def Inbox.none : Inbox := ⟨fun _ => .none, .none, fun _ => .none⟩

namespace Machine

def arrivals (spaces : AddressSpaces) (m : Machine) (event : Event) (inbox : Inbox) : Arrived :=
  match event with
  | .trap t =>
      if m.serves t = true ∧ t.kind = .synchronous then
        let left := Function.update inbox.arrived m.kernel.currentTid none
        if isSvc t = true then
          match ipcEffect spaces m.kernel (m.memAt t) (t.frame m.cpu.spEl1) with
          | .posted dst _ =>
              if (inbox.pend dst).map (·.call) = some .recvblk ∧ (m.kernel.table dst).state = .blocked then
                Function.update left dst (some inbox.mails.post.sent.length)
              else left
          | _ => left
        else left
      else inbox.arrived
  | _ => inbox.arrived

def inbox (spaces : AddressSpaces) (m : Machine) (event : Event) (after : Machine) (inbox : Inbox) : Inbox where
  pend := m.pends spaces event after inbox.pend
  mails := m.mails spaces event after inbox.mails
  arrived := m.arrivals spaces event inbox

-- The task's tables let it write every byte of the message to its buffer.
def Grants (spaces : AddressSpaces) (m : Machine) (t : Trap) (msg : List UInt8) : Prop :=
  ∀ i, i < msg.length → spaces.writable m.kernel.ttbr0 ((t.x 0).toNat + i) = true

-- The call returns to its task with the message, its length and its sender.
structure Delivers (m : Machine) (t : Trap) (msg : List UInt8) (sender : Nat) (after : Machine) : Prop where
  mode : after.mode = .el0
  current : after.kernel.currentTid = m.kernel.currentTid
  count : after.cpu.x 0 = UInt64.ofNat msg.length
  sender : after.cpu.x 1 = UInt64.ofNat sender
  bytes : ∀ i, i < msg.length → after.mem m.kernel.ttbr0 ((t.x 0).toNat + i) = msg.getD i 0

-- A task that a deposit has woken from its recvblk makes the same call again,
-- finds that letter in its mailbox, takes it out, and does not block. delivers
-- says what then becomes of the call.
def Received (spaces : AddressSpaces) (delivers : Machine → Trap → List UInt8 → Nat → Prop) (m : Machine) (inbox : Inbox) :
    Event → Prop
  | .trap t =>
      m.serves t = true → t.kind = .synchronous → ∀ n, inbox.arrived m.kernel.currentTid = some n →
        ∃ p letter, inbox.pend m.kernel.currentTid = some p ∧ p.call = .recvblk ∧
          (isSvc t = true ∧ t.x = p.frame.x ∧ t.pc = p.frame.elr) ∧
          inbox.mails.post.slot (inbox.mails.owner m.kernel.currentTid) = some n ∧
          inbox.mails.post.sent[n]? = some letter ∧
          (m.kernel.table m.kernel.currentTid).letter = some (letter.sender.1, letter.body) ∧
          m.kernel.ipcRecv (min (t.x 1).toNat msgMax) =
            .ok (letter.body.take (min (t.x 1).toNat msgMax), letter.sender.1, m.kernel.drain m.kernel.currentTid) ∧
          blockingCall spaces m.kernel (m.memAt t) (t.frame m.cpu.spEl1) = none ∧
          delivers m t (letter.body.take (min (t.x 1).toNat msgMax)) letter.sender.1
  | _ => True

end Machine

section
variable (spaces : AddressSpaces) (k : Kernel) (mem : UserMem)

theorem recvblk_runs (frame : TrapFrame) (asks : Call.recvblk.Asks frame) (taken : List UInt8 × Nat × Kernel)
    (took : k.ipcRecv (min (frame.x 1).toNat msgMax) = .ok taken) : blockingCall spaces k mem frame = none := by
  rw [recvblk_arm spaces k mem frame asks.1, if_pos asks.2, took]

theorem write_user_granted (va : Nat) (msg : List UInt8)
    (granted : ∀ i, i < msg.length → spaces.writable k.ttbr0 (va + i) = true) : ∃ mem', spaces.writeUser k mem va msg = some mem' := by
  have all : ((List.range msg.length).all fun i => spaces.writable k.ttbr0 (va + i)) = true :=
    List.all_eq_true.mpr fun i member => granted i (List.mem_range.mp member)
  exact ⟨_, by rw [AddressSpaces.writeUser, if_pos all]⟩

theorem write_user_faults (va : Nat) (msg : List UInt8)
    (refused : ¬ ∀ i, i < msg.length → spaces.writable k.ttbr0 (va + i) = true) : spaces.writeUser k mem va msg = none := by
  have some_not : ¬ ((List.range msg.length).all fun i => spaces.writable k.ttbr0 (va + i)) = true := fun all =>
    refused fun i small => List.all_eq_true.mp all i (List.mem_range.mpr small)
  rw [AddressSpaces.writeUser, if_neg some_not]

theorem write_user_bytes (mem' : UserMem) (va : Nat) (msg : List UInt8) (wrote : spaces.writeUser k mem va msg = some mem') (i : Nat)
    (small : i < msg.length) : mem' k.ttbr0 (va + i) = msg.getD i 0 := by
  unfold AddressSpaces.writeUser at wrote
  split_ifs at wrote
  rw [← Option.some.inj wrote, Function.update_self, if_pos (by omega), Nat.add_sub_cancel_left]

end

namespace Machine

section
variable (spaces : AddressSpaces) (address : Static → UInt64) (m : Machine) (pend : Nat → Option Pending)

theorem asleep_mail (t : Trap) (sync : t.kind = .synchronous) (tid : Nat) (other : tid ≠ m.kernel.currentTid)
    (slept : (m.kernel.table tid).state = .blocked)
    (sleeps : ((m.handled spaces .lowerAArch64 t).kernel.table tid).state = .blocked) :
    ((m.handled spaces .lowerAArch64 t).kernel.table tid).letter = (m.kernel.table tid).letter := by
  cases call : isSvc t with
  | true =>
      have effected := svc_effect spaces m.kernel (m.memAt t) (t.frame m.cpu.spEl1)
      rw [m.handled_svc spaces t call] at sleeps ⊢
      generalize handleSvcFromEl0 spaces m.kernel (m.memAt t) (t.frame m.cpu.spEl1) = outcome at effected sleeps
      generalize ipcEffect spaces m.kernel (m.memAt t) (t.frame m.cpu.spEl1) = effect at effected
      cases effected with
      | nothing _ same _ => exact letter_of_mail _ _ (same tid)
      | posted dst body posts =>
          change ((m.kernel.deposit dst body).table tid).state = .blocked at sleeps
          change ((m.kernel.deposit dst body).table tid).letter = _
          rw [Kernel.deposit_table] at sleeps ⊢
          by_cases here : tid = dst
          · rw [if_pos here, ← here, if_pos slept] at sleeps
            cases sleeps
          · rw [if_neg here]
      | taken _ _ takes _ => exact (drain_letter m.kernel tid takes.inside).trans (if_neg other)
      | lost _ takes _ => exact (drain_letter m.kernel tid takes.inside).trans (if_neg other)
  | false =>
      rw [m.handled_fault spaces t sync call]
      exact letter_of_mail _ _ (kill_mail spaces m.kernel _ _ tid other)

theorem receivers_step (receivers : ReceiversWoken m.kernel pend) (grounded : m.Grounded) (event : Event) :
    ReceiversWoken (m.next spaces address event).kernel (pends spaces m event (m.next spaces address event) pend) := by
  refine asleep_step spaces address m pend _ event receivers (fun _ _ _ _ empty => empty) ?_ ?_ ?_ ?_
  · intro quiet tid p empty receives
    rcases fire_task spaces address m event quiet tid with same | ⟨_, args, same⟩ | ⟨_, same⟩
    · rw [same]
      exact empty receives
    · rw [same]
      rfl
    · rw [same]
      exact empty receives
  · intro mem frame tid p empty receives
    have kept := letter_of_mail _ _ (tick_mail m.kernel mem frame tid)
    exact (letter_none _).mp (kept.trans ((letter_none _).mpr (empty receives)))
  · intro t p serves call sleeps receives
    obtain ⟨blocks, finds, _, _⟩ := falls_asleep m.kernel _ _ spaces p sleeps
    have awaits := (blocking_asks spaces m.kernel _ _ _ blocks).2
    have user := block_finds_user m.kernel _ _ finds
    have live := grounded.current ((m.serves_iff t).mp serves).2 user
    have kept := letter_of_mail _ _ (block_mail m.kernel (m.memAt t) (t.frame m.cpu.spEl1) p.call m.kernel.currentTid)
    rw [m.handled_svc spaces t call, handled_blocks _ _ _ _ _ blocks]
    rw [receives] at awaits kept ⊢
    exact (letter_none _).mp (kept.trans ((letter_none _).mpr (awaits (grounded.confined _ live))))
  · rintro t rfl serves sync tid p other waits slept sleeps empty receives
    have kept := asleep_mail spaces m t sync tid other slept sleeps
    exact (letter_none _).mp (kept.trans ((letter_none _).mpr (empty receives)))

end

end Machine

-- What has woken a task lies in its mailbox, and its recvblk is outstanding.
def Lying (inbox : Inbox) : Prop :=
  ∀ tid n, inbox.arrived tid = some n →
    (∃ p, inbox.pend tid = some p ∧ p.call = .recvblk) ∧ inbox.mails.post.slot (inbox.mails.owner tid) = some n

namespace Machine

section
variable (spaces : AddressSpaces) (address : Static → UInt64) (m : Machine)

theorem mails_keeps (mails : Mails) (event : Event) (after : Machine) (tid n : Nat) (live : (m.kernel.table tid).state ≠ .exited)
    (other : ∀ t, event = .trap t → m.serves t = true ∧ t.kind = .synchronous → tid ≠ m.kernel.currentTid)
    (lies : mails.post.slot (mails.owner tid) = some n) :
    (Machine.mails spaces m event after mails).post.slot ((Machine.mails spaces m event after mails).owner tid) = some n := by
  cases event with
  | spawn args =>
      simp only [Machine.mails]
      rcases spawn_cases m.kernel args with ⟨full, _⟩ | ⟨fresh, free, _, gone, _⟩
      · rw [full]
        exact lies
      · rw [free]
        dsimp only
        split_ifs
        · have apart : tid ≠ fresh := fun here => live (here ▸ gone)
          change mails.post.slot (tid, Function.update mails.lives fresh _ tid) = _
          rw [Function.update_of_ne apart]
          exact lies
        · exact lies
  | trap t =>
      by_cases both : m.serves t = true ∧ t.kind = .synchronous
      · have apart : mails.owner tid ≠ mails.owner m.kernel.currentTid := fun here =>
          other t rfl both ((owner_inj mails _ _).mp here)
        cases call : isSvc t with
        | true =>
            rw [mails_sync spaces m mails t after both.1 both.2 call]
            cases ipcEffect spaces m.kernel (m.memAt t) (t.frame m.cpu.spEl1) with
            | nothing => exact lies
            | posted dst body => exact mails.post.put_lies _ _ n lies
            | taken =>
                change (mails.post.take _).slot (mails.owner tid) = _
                rw [Post.take_slot, Function.update_of_ne apart]
                exact lies
            | lost =>
                change (mails.post.drop _).slot (mails.owner tid) = _
                rw [Post.drop_slot, Function.update_of_ne apart]
                exact lies
        | false =>
            rw [Machine.mails, if_pos both]
            dsimp only
            rw [call, if_neg Bool.false_ne_true]
            split_ifs
            · change (mails.post.drop _).slot (mails.owner tid) = _
              rw [Post.drop_slot, Function.update_of_ne apart]
              exact lies
            · exact lies
      · rw [Machine.mails, if_neg both]
        exact lies
  | _ => exact lies

variable (inbox : Inbox)

theorem arrivals_other (event : Event) (other : ∀ t, event = .trap t → ¬ (m.serves t = true ∧ t.kind = .synchronous)) :
    m.arrivals spaces event inbox = inbox.arrived := by
  cases event with
  | trap t => rw [arrivals, if_neg (other t rfl)]
  | _ => rfl

theorem arrivals_sync (sleepers : Sleepers m.kernel inbox.pend) (t : Trap)
    (both : m.serves t = true ∧ t.kind = .synchronous) (tid n : Nat) (arrives : m.arrivals spaces (.trap t) inbox tid = some n) :
    tid ≠ m.kernel.currentTid ∧
      (inbox.arrived tid = some n ∨
        isSvc t = true ∧ n = inbox.mails.post.sent.length ∧ (∃ p, inbox.pend tid = some p ∧ p.call = .recvblk) ∧
          ∃ body, ipcEffect spaces m.kernel (m.memAt t) (t.frame m.cpu.spEl1) = .posted tid body) := by
  have earlier : Function.update inbox.arrived m.kernel.currentTid none tid = some n →
      tid ≠ m.kernel.currentTid ∧ inbox.arrived tid = some n := by
    intro old
    by_cases own : tid = m.kernel.currentTid
    · rw [own, Function.update_self] at old
      cases old
    · rw [Function.update_of_ne own] at old
      exact ⟨own, old⟩
  rw [arrivals, if_pos both] at arrives
  by_cases call : isSvc t = true
  · rw [if_pos call] at arrives
    cases effects : ipcEffect spaces m.kernel (m.memAt t) (t.frame m.cpu.spEl1) with
    | posted dst body =>
        rw [effects] at arrives
        dsimp only at arrives
        by_cases wakes : (inbox.pend dst).map (·.call) = some .recvblk ∧ (m.kernel.table dst).state = .blocked
        · rw [if_pos wakes] at arrives
          obtain ⟨p, waits, receives⟩ := Option.map_eq_some_iff.mp wakes.1
          by_cases here : tid = dst
          · subst here
            rw [Function.update_self] at arrives
            refine ⟨?_, .inr ⟨call, (Option.some.inj arrives).symm, ⟨p, waits, receives⟩, body, rfl⟩⟩
            rintro rfl
            exact sleepers.awake p waits wakes.2
          · rw [Function.update_of_ne here] at arrives
            exact (earlier arrives).imp_right .inl
        · rw [if_neg wakes] at arrives
          exact (earlier arrives).imp_right .inl
    | _ =>
        rw [effects] at arrives
        exact (earlier arrives).imp_right .inl
  · rw [if_neg call] at arrives
    exact (earlier arrives).imp_right .inl

theorem lying_step (sleepers : Sleepers m.kernel inbox.pend) (carried : Carried m.kernel inbox.mails) (lying : Lying inbox)
    (event : Event) (after : Machine) : Lying (m.inbox spaces event after inbox) := by
  intro tid n arrives
  change m.arrivals spaces event inbox tid = some n at arrives
  change (∃ p, m.pends spaces event after inbox.pend tid = some p ∧ p.call = .recvblk) ∧
    (Machine.mails spaces m event after inbox.mails).post.slot
      ((Machine.mails spaces m event after inbox.mails).owner tid) = some n
  by_cases own : ∃ t, event = .trap t ∧ m.serves t = true ∧ t.kind = .synchronous
  · obtain ⟨t, rfl, both⟩ := own
    obtain ⟨other, old | ⟨call, last, waits, body, effects⟩⟩ := arrivals_sync spaces m inbox sleepers t both tid n arrives
    · obtain ⟨⟨p, waits, receives⟩, lies⟩ := lying tid n old
      refine ⟨⟨p, ?_, receives⟩, mails_keeps spaces m inbox.mails _ after tid n (sleepers.live tid p waits) ?_ lies⟩
      · rw [pends_sync spaces m inbox.pend t after both.1 both.2, Function.update_of_ne other]
        exact waits
      · exact fun _ _ _ => other
    · obtain ⟨posts, _⟩ := effect_posted spaces m.kernel _ _ tid body effects
      rw [pends_sync spaces m inbox.pend t after both.1 both.2, Function.update_of_ne other]
      refine ⟨waits, ?_⟩
      rw [mails_sync spaces m inbox.mails t after both.1 both.2 call, effects]
      change (Post.put _ _).slot (inbox.mails.owner tid) = _
      rw [Post.put_slot _ _ ((carried.room_iff tid).mp posts.room), last]
      exact Function.update_self ..
  · have idle : ∀ t, event = .trap t → ¬ (m.serves t = true ∧ t.kind = .synchronous) := fun t same both => own ⟨t, same, both⟩
    rw [arrivals_other spaces m inbox event idle] at arrives
    obtain ⟨⟨p, waits, receives⟩, lies⟩ := lying tid n arrives
    rw [pends_other spaces m inbox.pend event after idle]
    exact ⟨⟨p, waits, receives⟩, mails_keeps spaces m inbox.mails event after tid n (sleepers.live tid p waits)
      (fun t same both => absurd both (idle t same)) lies⟩

-- What holds throughout a run.
structure Expects (m : Machine) (inbox : Inbox) : Prop where
  grounded : m.Grounded
  sleepers : Sleepers m.kernel inbox.pend
  retries : m.Retries inbox.pend
  carried : Carried m.kernel inbox.mails
  receivers : ReceiversWoken m.kernel inbox.pend
  lying : Lying inbox

theorem expects_step (expects : m.Expects inbox) (event : Event) (possible : m.Possible event) :
    (m.next spaces address event).Expects (m.inbox spaces event (m.next spaces address event) inbox) where
  grounded := grounded_step spaces address m expects.grounded event
  sleepers := sleepers_step spaces address m inbox.pend expects.grounded expects.sleepers event
  retries := retries_step spaces address m inbox.pend expects.grounded expects.sleepers expects.retries event possible
  carried := carried_step spaces address m inbox.mails expects.grounded expects.carried event
  receivers := receivers_step spaces address m inbox.pend expects.receivers expects.grounded event
  lying := lying_step spaces m inbox expects.sleepers expects.carried expects.lying event _

-- The retried recvblk returns if its buffer is one the task may write. If not,
-- the copy faults in the handler.
structure DeliversIfGranted (t : Trap) (msg : List UInt8) (sender : Nat) : Prop where
  granted : m.Grants spaces t msg → m.Delivers t msg sender (m.next spaces address (.trap t))
  refused : ¬ m.Grants spaces t msg → (m.next spaces address (.trap t)).mode = .parked .faultInHandler

theorem taken_delivers (t : Trap) (serves : m.serves t = true) (call : isSvc t = true) (sender : Nat) (body : List UInt8)
    (holds : (m.kernel.table m.kernel.currentTid).letter = some (sender, body))
    (effects : ipcEffect spaces m.kernel (m.memAt t) (t.frame m.cpu.spEl1) = .taken) :
    m.Delivers t (body.take (min (t.x 1).toNat msgMax)) sender (m.next spaces address (.trap t)) := by
  obtain ⟨msg, mem', takes, wrote, outcome⟩ := effect_taken spaces m.kernel _ _ effects
  obtain ⟨_, from_, message⟩ := (letter_some _ _ _).mp holds
  have part : msg = body.take (min (t.x 1).toNat msgMax) := by
    rw [takes.part, message]
    rfl
  have root : (m.kernel.drain m.kernel.currentTid).ttbr0 = m.kernel.ttbr0 := (Kernel.SameTask.drain m.kernel _).root
  rw [part] at wrote outcome
  rw [from_, ← m.handled_svc spaces t call] at outcome
  have resumed := served_resumed spaces address m t serves _ _ _ outcome
  refine ⟨?_, ?_, ?_, ?_, fun i small => ?_⟩
  · rw [resumed.mode, resumeMode]
    exact if_pos (m.trap_pstate t ((m.serves_iff t).mp serves).1)
  · rw [resumed.kernel]
    exact Kernel.drain_current m.kernel _
  · have apart : (0 : Fin 31) ≠ 1 := by decide
    rw [resumed.x, TrapFrame.set_x_other _ 1 0 _ apart, TrapFrame.set_x_same]
  · rw [resumed.x, TrapFrame.set_x_same]
  · rw [resumed.mem, ← root]
    exact write_user_bytes spaces _ _ mem' _ _ wrote i small

theorem delivers_granted (t : Trap) (serves : m.serves t = true) (call : isSvc t = true) (asks : Call.recvblk.Asks (t.frame m.cpu.spEl1))
    (inside : 0 < m.kernel.currentTid ∧ m.kernel.currentTid < maxTasks) (sender : Nat) (body : List UInt8)
    (holds : (m.kernel.table m.kernel.currentTid).letter = some (sender, body)) :
    m.DeliversIfGranted spaces address t (body.take (min (t.x 1).toNat msgMax)) sender := by
  have took := recv_finds m.kernel (min (t.x 1).toNat msgMax) inside sender body holds
  have root : (m.kernel.drain m.kernel.currentTid).ttbr0 = m.kernel.ttbr0 := (Kernel.SameTask.drain m.kernel _).root
  constructor
  · intro granted
    unfold Grants at granted
    rw [← root] at granted
    obtain ⟨mem', wrote⟩ := write_user_granted spaces _ (m.memAt t) (t.x 0).toNat _ granted
    exact taken_delivers spaces address m t serves call sender body holds
      (recv_effect_taken spaces m.kernel (m.memAt t) (t.frame m.cpu.spEl1) (.inr asks.1) asks.2.1 asks.2.2 _ _ took mem' wrote)
  · intro refused
    unfold Grants at refused
    rw [← root] at refused
    have faults := write_user_faults spaces _ (m.memAt t) (t.x 0).toNat _ refused
    have effects := recv_effect_lost spaces m.kernel (m.memAt t) (t.frame m.cpu.spEl1) (.inr asks.1) asks.2.1 asks.2.2 _ _
      took faults
    have outcome := (m.handled_svc spaces t call).trans (effect_lost spaces m.kernel _ _ effects).2
    obtain ⟨enabled, down⟩ := (m.serves_iff t).mp serves
    rw [next_enabled spaces address m _ enabled]
    exact (deliver_parked spaces address m .lowerAArch64 (m.memAt t) t down .faultInHandler _ outcome).1

theorem received_step (grounded : m.Grounded) (sleepers : Sleepers m.kernel inbox.pend) (retries : m.Retries inbox.pend)
    (carried : Carried m.kernel inbox.mails) (lying : Lying inbox) (event : Event) (possible : m.Possible event) :
    Received spaces (DeliversIfGranted spaces address) m inbox event := by
  cases event with
  | trap t =>
      intro serves sync n arrives
      obtain ⟨⟨p, waits, receives⟩, lies⟩ := lying _ n arrives
      obtain ⟨letter, found, _⟩ := inbox.mails.post.addressed _ n lies
      have down := ((m.serves_iff t).mp serves).2
      have inside := grounded.confined _ (sleepers.live _ p waits)
      have rewinds : p.call.rewinds = true := by rw [receives]; rfl
      obtain ⟨_, x, ⟨async, _⟩ | ⟨call, pc⟩⟩ := retry_trap m inbox.pend grounded sleepers retries t down possible p waits rewinds
      · exact absurd sync async
      · have asks := retries.asks _ p waits
        rw [receives] at asks
        change Call.recvblk.Asks p.frame at asks
        have again : Call.recvblk.Asks (t.frame m.cpu.spEl1) := by
          simp only [Call.Asks, Trap.frame, x]
          exact asks
        have content : inbox.mails.post.content (inbox.mails.owner m.kernel.currentTid) = some letter := by
          rw [Post.content, lies]
          exact found
        have holds : (m.kernel.table m.kernel.currentTid).letter = some (letter.sender.1, letter.body) := by
          rw [carried.holds, content]
          rfl
        have took := recv_finds m.kernel (min (t.x 1).toNat msgMax) inside letter.sender.1 letter.body holds
        have runs := recvblk_runs spaces m.kernel (m.memAt t) (t.frame m.cpu.spEl1) again _ took
        exact ⟨p, letter, waits, receives, ⟨call, x, pc⟩, lies, found, holds, took, runs,
          delivers_granted spaces address m t serves call again inside letter.sender.1 letter.body holds⟩
  | _ => trivial

end

-- In no run does a task sleep in a recvblk with a message in its mailbox, and
-- the message that wakes one is there when the call is made again.
theorem message_waits_for_retry (spaces : AddressSpaces) (address : Static → UInt64) (cpu : Cpu) (events : List Event)
    (possible : Run.Along (next spaces address) Possible (boot spaces cpu) events) :
    Run.Always (Run.recorded (next spaces address) (inbox spaces))
        (fun state => ReceiversWoken state.1.kernel state.2.pend) (boot spaces cpu, Inbox.none) events ∧
      Run.Along (Run.recorded (next spaces address) (inbox spaces))
        (fun state event => Received spaces (DeliversIfGranted spaces address) state.1 state.2 event)
        (boot spaces cpu, Inbox.none) events := by
  have along := Run.along_recorded _ (inbox spaces) _ (boot spaces cpu, Inbox.none) events possible
  have initial : (boot spaces cpu).Expects Inbox.none :=
    ⟨boot_grounded spaces cpu, boot_sleepers spaces cpu, boot_retries spaces cpu, boot_carried spaces cpu,
      fun _ _ no => (by cases no), fun _ _ no => (by cases no)⟩
  refine ⟨Run.always_of_invariant _ _ (fun state => state.1.Expects state.2) _ ?_ (fun _ expects => expects.receivers) _ events
    initial along, Run.along_of_invariant _ _ _ (fun state => state.1.Expects state.2) ?_ _ events initial along⟩
  · rintro ⟨m, box⟩ event expects allowed
    exact expects_step spaces address m box expects event allowed
  · rintro ⟨m, box⟩ event expects allowed
    exact ⟨expects_step spaces address m box expects event allowed,
      received_step spaces address m box expects.grounded expects.sleepers expects.retries expects.carried expects.lying event
        allowed⟩

-- Task 1 sleeps in a recvblk, task 2 sends it four bytes and yields.
def sendWakes (buffer : UInt64) : List Event :=
  [ .buildAt 1, .buildAt 2, .spawnAt 1 one_root, .spawnAt 2 two_root, .drop false, .enter fun _ => 0,
    .trap (Trap.svc (registers sysRecvblk [buffer, 8]) svcVa), .trap (Trap.svc (registers sysSend [1, 0x200000, 4]) svcVa),
    .trap (Trap.svc (registers sysYield []) svcVa) ]

-- The tables of a task that let it write its stack alone.
def stackOnly : AddressSpaces :=
  ⟨fun _ _ => true, fun _ va => decide (userStackTop.toNat - 0x4000 ≤ va ∧ va < userStackTop.toNat), 0⟩

def receivesAgain (buffer : UInt64) : Event :=
  .trap (Run.exec (next stackOnly fun _ => 0) (boot stackOnly coldCpu) (sendWakes buffer)).again

theorem received_possible (buffer : UInt64)
    (off : Run.Along (next stackOnly fun _ => 0) OffSvc (boot stackOnly coldCpu) (sendWakes buffer))
    (on : (Run.exec (next stackOnly fun _ => 0) (boot stackOnly coldCpu) (sendWakes buffer)).text
      (Run.exec (next stackOnly fun _ => 0) (boot stackOnly coldCpu) (sendWakes buffer)).kernel.ttbr0
      (Run.exec (next stackOnly fun _ => 0) (boot stackOnly coldCpu) (sendWakes buffer)).cpu.pc = true) :
    Run.Along (next stackOnly fun _ => 0) Possible (boot stackOnly coldCpu) (sendWakes buffer ++ [receivesAgain buffer]) :=
  (Run.along_append _ _ _ _ _).mpr ⟨Run.along_imp _ OffSvc _ off_svc_possible _ _ off, again_possible _ on, trivial⟩

-- With its buffer on its stack task 1 gets the four bytes.
theorem message_waits_for_retry_stack :
    (Run.exec (next stackOnly fun _ => 0) (boot stackOnly coldCpu)
        (sendWakes (userStackTop - 16) ++ [receivesAgain (userStackTop - 16)])).cpu.x 0 = 4 ∧
      Run.Always (Run.recorded (next stackOnly fun _ => 0) (inbox stackOnly))
          (fun state => ReceiversWoken state.1.kernel state.2.pend) (boot stackOnly coldCpu, Inbox.none)
          (sendWakes (userStackTop - 16) ++ [receivesAgain (userStackTop - 16)]) ∧
        Run.Along (Run.recorded (next stackOnly fun _ => 0) (inbox stackOnly))
          (fun state event => Received stackOnly (DeliversIfGranted stackOnly fun _ => 0) state.1 state.2 event)
          (boot stackOnly coldCpu, Inbox.none) (sendWakes (userStackTop - 16) ++ [receivesAgain (userStackTop - 16)]) := by
  refine ⟨by rw [receivesAgain, next_direct]; decide +kernel,
    message_waits_for_retry stackOnly (fun _ => 0) coldCpu _ (received_possible _ ?_ ?_)⟩
  · rw [next_direct]
    decide +kernel
  · rw [next_direct]
    decide +kernel

-- With its buffer at address 0 the message leaves the mailbox and the copy
-- faults in the handler.
theorem unmapped_buffer_loses_message :
    Run.Along (next stackOnly fun _ => 0) Possible (boot stackOnly coldCpu) (sendWakes 0 ++ [receivesAgain 0]) ∧
      ¬ (Run.Always (Run.recorded (next stackOnly fun _ => 0) (inbox stackOnly))
            (fun state => ReceiversWoken state.1.kernel state.2.pend) (boot stackOnly coldCpu, Inbox.none)
            (sendWakes 0 ++ [receivesAgain 0]) ∧
          Run.Along (Run.recorded (next stackOnly fun _ => 0) (inbox stackOnly))
            (fun state event => Received stackOnly
              (fun m t msg sender => m.Delivers t msg sender (m.next stackOnly (fun _ => 0) (.trap t))) state.1 state.2 event)
            (boot stackOnly coldCpu, Inbox.none) (sendWakes 0 ++ [receivesAgain 0])) := by
  refine ⟨received_possible 0 (by rw [next_direct]; decide +kernel) (by rw [next_direct]; decide +kernel), fun both => ?_⟩
  obtain ⟨_, last, _⟩ := (Run.along_append _ _ _ _ _).mp both.2
  have machine := Run.exec_recorded (next stackOnly fun _ => 0) (inbox stackOnly) (boot stackOnly coldCpu, Inbox.none) (sendWakes 0)
  have woken : (Run.exec (Run.recorded (next stackOnly fun _ => 0) (inbox stackOnly)) (boot stackOnly coldCpu, Inbox.none)
      (sendWakes 0)).2.arrived 1 = some 0 := by
    rw [next_direct]
    decide +kernel
  have here : (Run.exec (Run.recorded (next stackOnly fun _ => 0) (inbox stackOnly)) (boot stackOnly coldCpu, Inbox.none)
      (sendWakes 0)).1.kernel.currentTid = 1 := by
    rw [machine, next_direct]
    decide +kernel
  rw [← here] at woken
  unfold receivesAgain at last
  have serves : (Run.exec (Run.recorded (next stackOnly fun _ => 0) (inbox stackOnly)) (boot stackOnly coldCpu, Inbox.none)
      (sendWakes 0)).1.serves (Run.exec (next stackOnly fun _ => 0) (boot stackOnly coldCpu) (sendWakes 0)).again = true := by
    rw [machine, next_direct]
    decide +kernel
  obtain ⟨_, _, _, _, _, _, _, _, _, _, delivers⟩ := last serves rfl 0 woken
  have returns := delivers.mode
  rw [machine, next_direct] at returns
  exact absurd returns (by decide +kernel)

end Machine

end Opal
