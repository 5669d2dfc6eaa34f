import Opal.Mail
import Opal.Pending
import Opal.Post

set_option autoImplicit false

namespace Opal

-- What a mailbox holds: the tid of the sender, and the message.
def Task.letter (t : Task) : Option (Nat × List UInt8) :=
  if t.mailboxLen = 0 then none else some (t.mailboxFrom, t.message)

theorem letter_of_mail (a b : Task) (same : a.mail = b.mail) : a.letter = b.letter := by
  simp only [Task.mail, Prod.mk.injEq] at same
  obtain ⟨bytes, len, sender⟩ := same
  rw [Task.letter, Task.letter, Task.message, Task.message, bytes, len, sender]

theorem letter_none (t : Task) : t.letter = none ↔ t.mailboxLen = 0 := by
  unfold Task.letter
  split_ifs with empty
  · exact ⟨fun _ => empty, fun _ => rfl⟩
  · exact ⟨fun no => (by cases no), fun no => absurd no empty⟩

theorem letter_some (t : Task) (sender : Nat) (body : List UInt8) :
    t.letter = some (sender, body) ↔ t.mailboxLen ≠ 0 ∧ t.mailboxFrom = sender ∧ t.message = body := by
  unfold Task.letter
  split_ifs with empty
  · exact ⟨fun no => (by cases no), fun all => absurd empty all.1⟩
  · rw [Option.some.injEq, Prod.mk.injEq]
    exact ⟨fun both => ⟨empty, both⟩, fun all => all.2⟩

-- What a system call does to the mailboxes. A message is lost when it has left
-- the mailbox and the copy to the task's buffer faults.
inductive IpcEffect where
  | nothing
  | posted (dst : Nat) (body : List UInt8)
  | taken
  | lost

def ipcEffect (spaces : AddressSpaces) (k : Kernel) (mem : UserMem) (frame : TrapFrame) : IpcEffect :=
  if frame.x 8 = sysSend ∨ frame.x 8 = sysSendblk then
    if frame.x 2 = 0 then .nothing
    else if isValidUserRange (frame.x 1).toNat (min (frame.x 2).toNat msgMax) = false then .nothing
    else
      match spaces.readUser k mem (frame.x 1).toNat (min (frame.x 2).toNat msgMax) with
      | none => .nothing
      | some msg =>
          match k.ipcSend (frame.x 0).toNat msg with
          | .ok _ => .posted (frame.x 0).toNat msg
          | .error _ => .nothing
  else if frame.x 8 = sysRecv ∨ frame.x 8 = sysRecvblk then
    if frame.x 1 = 0 then .nothing
    else if isValidUserRange (frame.x 0).toNat (min (frame.x 1).toNat msgMax) = false then .nothing
    else
      match k.ipcRecv (min (frame.x 1).toNat msgMax) with
      | .error _ => .nothing
      | .ok (msg, _, after) =>
          match spaces.writeUser after mem (frame.x 0).toNat msg with
          | none => .lost
          | some _ => .taken
  else .nothing

-- A deposit of the sender's bytes, into the empty mailbox of a live task.
structure Posts (spaces : AddressSpaces) (k : Kernel) (mem : UserMem) (frame : TrapFrame) (dst : Nat) (body : List UInt8) :
    Prop where
  nr : frame.x 8 = sysSend ∨ frame.x 8 = sysSendblk
  addressee : dst = (frame.x 0).toNat
  some_ : frame.x 2 ≠ 0
  read : spaces.readUser k mem (frame.x 1).toNat (min (frame.x 2).toNat msgMax) = some body
  inside : 0 < dst ∧ dst < maxTasks
  live : (k.table dst).state ≠ .exited
  room : (k.table dst).mailboxLen = 0

-- A receive that finds a message, and the part of it that is asked for.
structure Takes (k : Kernel) (frame : TrapFrame) (msg : List UInt8) : Prop where
  nr : frame.x 8 = sysRecv ∨ frame.x 8 = sysRecvblk
  inside : 0 < k.currentTid ∧ k.currentTid < maxTasks
  full : (k.table k.currentTid).mailboxLen ≠ 0
  part : msg = (k.table k.currentTid).message.take (min (frame.x 1).toNat msgMax)

-- The user memory a handler leaves, mem being what it found.
def Outcome.memory (mem : UserMem) : Outcome → UserMem
  | .resumed _ mem' _ => mem'
  | _ => mem

inductive Effected (spaces : AddressSpaces) (k : Kernel) (mem : UserMem) (frame : TrapFrame) : IpcEffect → Outcome → Prop where
  | nothing (outcome : Outcome) (same : SameMail k outcome.kernel) (kept : outcome.memory mem = mem) :
      Effected spaces k mem frame .nothing outcome
  | posted (dst : Nat) (body : List UInt8) (posts : Posts spaces k mem frame dst body) :
      Effected spaces k mem frame (.posted dst body) (.resumed (k.deposit dst body) mem (frame.setX 0 0))
  | taken (msg : List UInt8) (mem' : UserMem) (takes : Takes k frame msg)
      (wrote : spaces.writeUser (k.drain k.currentTid) mem (frame.x 0).toNat msg = some mem') :
      Effected spaces k mem frame .taken
        (.resumed (k.drain k.currentTid) mem'
          ((frame.setX 0 (UInt64.ofNat msg.length)).setX 1 (UInt64.ofNat (k.table k.currentTid).mailboxFrom)))
  | lost (msg : List UInt8) (takes : Takes k frame msg)
      (refused : spaces.writeUser (k.drain k.currentTid) mem (frame.x 0).toNat msg = none) :
      Effected spaces k mem frame .lost (.parked .faultInHandler (k.drain k.currentTid))

section
variable (spaces : AddressSpaces) (k : Kernel) (mem : UserMem) (frame : TrapFrame)

theorem send_effect (refused : Int64 → Outcome) (keeps : ∀ e, SameMail k (refused e).kernel ∧ (refused e).memory mem = mem)
    (nr : frame.x 8 = sysSend ∨ frame.x 8 = sysSendblk) :
    Effected spaces k mem frame (ipcEffect spaces k mem frame) (svcSendOr spaces k mem frame refused) := by
  unfold ipcEffect svcSendOr
  rw [if_pos nr]
  dsimp only
  by_cases empty : frame.x 2 = 0
  · rw [if_pos empty, if_pos empty]
    exact .nothing _ (SameMail.refl k) rfl
  · rw [if_neg empty, if_neg empty]
    by_cases invalid : isValidUserRange (frame.x 1).toNat (min (frame.x 2).toNat msgMax) = false
    · rw [if_pos invalid, if_pos invalid]
      exact .nothing _ (SameMail.refl k) rfl
    · rw [if_neg invalid, if_neg invalid]
      cases read : spaces.readUser k mem (frame.x 1).toNat (min (frame.x 2).toNat msgMax) with
      | none => exact .nothing _ (SameMail.refl k) rfl
      | some msg =>
          dsimp only
          cases sent : k.ipcSend (frame.x 0).toNat msg with
          | error e => exact .nothing _ (keeps e).1 (keeps e).2
          | ok after =>
              obtain ⟨inside, live, room, rfl⟩ := (Kernel.ipc_send_ok _ _ _ _).mp sent
              exact .posted _ msg ⟨nr, rfl, empty, read, inside, live, room⟩

theorem not_send (nr : frame.x 8 = sysRecv ∨ frame.x 8 = sysRecvblk) : ¬ (frame.x 8 = sysSend ∨ frame.x 8 = sysSendblk) := by
  rcases nr with same | same
  · rw [same]
    decide
  · rw [same]
    decide

theorem recv_effect (refused : Int64 → Outcome) (keeps : ∀ e, SameMail k (refused e).kernel ∧ (refused e).memory mem = mem)
    (nr : frame.x 8 = sysRecv ∨ frame.x 8 = sysRecvblk) :
    Effected spaces k mem frame (ipcEffect spaces k mem frame) (svcRecvOr spaces k mem frame refused) := by
  unfold ipcEffect svcRecvOr
  rw [if_neg (not_send frame nr), if_pos nr]
  dsimp only
  by_cases empty : frame.x 1 = 0
  · rw [if_pos empty, if_pos empty]
    exact .nothing _ (SameMail.refl k) rfl
  · rw [if_neg empty, if_neg empty]
    by_cases invalid : isValidUserRange (frame.x 0).toNat (min (frame.x 1).toNat msgMax) = false
    · rw [if_pos invalid, if_pos invalid]
      exact .nothing _ (SameMail.refl k) rfl
    · rw [if_neg invalid, if_neg invalid]
      cases took : k.ipcRecv (min (frame.x 1).toNat msgMax) with
      | error e => exact .nothing _ (keeps e).1 (keeps e).2
      | ok result =>
          obtain ⟨msg, sender, after⟩ := result
          obtain ⟨inside, full, bytes, rfl, rfl⟩ := (Kernel.ipc_recv_ok _ _ _ _ _).mp took
          have takes : Takes k frame msg := by
            refine ⟨nr, inside, Nat.ne_of_gt full, ?_⟩
            rw [bytes, Task.message, List.take_take, Nat.min_comm]
          dsimp only
          cases wrote : spaces.writeUser (k.drain k.currentTid) mem (frame.x 0).toNat msg with
          | none => exact .lost msg takes wrote
          | some mem' => exact .taken msg mem' takes wrote

theorem recv_finds (bufLen : Nat) (inside : 0 < k.currentTid ∧ k.currentTid < maxTasks) (sender : Nat) (body : List UInt8)
    (holds : (k.table k.currentTid).letter = some (sender, body)) :
    k.ipcRecv bufLen = .ok (body.take bufLen, sender, k.drain k.currentTid) := by
  obtain ⟨full, from_, message⟩ := (letter_some _ _ _).mp holds
  refine (Kernel.ipc_recv_ok _ _ _ _ _).mpr ⟨inside, Nat.pos_of_ne_zero full, ?_, from_.symm, rfl⟩
  rw [← message, Task.message, List.take_take, Nat.min_comm]

theorem recv_effect_taken (nr : frame.x 8 = sysRecv ∨ frame.x 8 = sysRecvblk) (some_ : frame.x 1 ≠ 0)
    (valid : isValidUserRange (frame.x 0).toNat (min (frame.x 1).toNat msgMax) = true) (msg : List UInt8) (sender : Nat)
    (took : k.ipcRecv (min (frame.x 1).toNat msgMax) = .ok (msg, sender, k.drain k.currentTid)) (mem' : UserMem)
    (wrote : spaces.writeUser (k.drain k.currentTid) mem (frame.x 0).toNat msg = some mem') :
    ipcEffect spaces k mem frame = .taken := by
  rw [ipcEffect, if_neg (not_send frame nr), if_pos nr, if_neg some_, if_neg (by rw [valid]; exact Bool.noConfusion), took]
  dsimp only
  rw [wrote]

theorem recv_effect_lost (nr : frame.x 8 = sysRecv ∨ frame.x 8 = sysRecvblk) (some_ : frame.x 1 ≠ 0)
    (valid : isValidUserRange (frame.x 0).toNat (min (frame.x 1).toNat msgMax) = true) (msg : List UInt8) (sender : Nat)
    (took : k.ipcRecv (min (frame.x 1).toNat msgMax) = .ok (msg, sender, k.drain k.currentTid))
    (faults : spaces.writeUser (k.drain k.currentTid) mem (frame.x 0).toNat msg = none) :
    ipcEffect spaces k mem frame = .lost := by
  rw [ipcEffect, if_neg (not_send frame nr), if_pos nr, if_neg some_, if_neg (by rw [valid]; exact Bool.noConfusion), took]
  dsimp only
  rw [faults]

theorem recv_effect_found (nr : frame.x 8 = sysRecv ∨ frame.x 8 = sysRecvblk) (some_ : frame.x 1 ≠ 0)
    (valid : isValidUserRange (frame.x 0).toNat (min (frame.x 1).toNat msgMax) = true) (msg : List UInt8) (sender : Nat)
    (took : k.ipcRecv (min (frame.x 1).toNat msgMax) = .ok (msg, sender, k.drain k.currentTid)) :
    ipcEffect spaces k mem frame ≠ .nothing := by
  rw [ipcEffect, if_neg (not_send frame nr), if_pos nr, if_neg some_, if_neg (by rw [valid]; exact Bool.noConfusion), took]
  dsimp only
  cases spaces.writeUser (k.drain k.currentTid) mem (frame.x 0).toNat msg with
  | none => exact fun no => (by cases no)
  | some _ => exact fun no => (by cases no)

theorem block_memory (call : Call) : (blockFor k mem frame call).memory mem = mem := by
  unfold blockFor
  dsimp only
  split_ifs <;> rfl

theorem yield_memory : (svcYield k mem frame).memory mem = mem := by
  unfold svcYield
  dsimp only
  split_ifs <;> rfl

theorem exit_memory : (svcExit spaces k mem frame).memory mem = mem := by
  unfold svcExit
  dsimp only
  split_ifs <;> rfl

theorem retry_keeps (call : Call) (rewinds : ∀ ticks, call ≠ .sleep ticks) :
    SameMail k (blockToRetry k mem frame (call.mark k.ticks) call.unmark).kernel ∧
      (blockToRetry k mem frame (call.mark k.ticks) call.unmark).memory mem = mem := by
  rw [block_to_retry_eq k mem frame call rewinds]
  exact ⟨block_mail k mem frame call, block_memory k mem frame call⟩

-- Everything a system call does to the mailboxes.
theorem svc_effect : Effected spaces k mem frame (ipcEffect spaces k mem frame) (handleSvcFromEl0 spaces k mem frame) := by
  have handled := svc_handled spaces k mem frame
  by_cases send : frame.x 8 = sysSend
  · have arm : handleSvcFromEl0 spaces k mem frame = svcSend spaces k mem frame := by
      rw [handleSvcFromEl0, send]
      rfl
    rw [arm]
    exact send_effect spaces k mem frame _ (fun _ => ⟨SameMail.refl k, rfl⟩) (.inl send)
  by_cases sendblk : frame.x 8 = sysSendblk
  · have arm : handleSvcFromEl0 spaces k mem frame = svcSendblk spaces k mem frame := by
      rw [handleSvcFromEl0, sendblk]
      rfl
    rw [arm]
    refine send_effect spaces k mem frame _ (fun e => ?_) (.inr sendblk)
    split_ifs
    · exact ⟨SameMail.refl k, rfl⟩
    · exact retry_keeps k mem frame (.sendblk (frame.x 0).toNat) fun _ => by simp
    · exact ⟨SameMail.refl k, rfl⟩
  by_cases recv : frame.x 8 = sysRecv
  · have arm : handleSvcFromEl0 spaces k mem frame = svcRecv spaces k mem frame := by
      rw [handleSvcFromEl0, recv]
      rfl
    rw [arm]
    exact recv_effect spaces k mem frame _ (fun _ => ⟨SameMail.refl k, rfl⟩) (.inl recv)
  by_cases recvblk : frame.x 8 = sysRecvblk
  · have arm : handleSvcFromEl0 spaces k mem frame = svcRecvblk spaces k mem frame := by
      rw [handleSvcFromEl0, recvblk]
      rfl
    rw [arm]
    exact recv_effect spaces k mem frame _ (fun _ => retry_keeps k mem frame .recvblk fun _ => by simp) (.inr recvblk)
  have quiet : ipcEffect spaces k mem frame = .nothing := by
    rw [ipcEffect, if_neg (not_or.mpr ⟨send, sendblk⟩), if_neg (not_or.mpr ⟨recv, recvblk⟩)]
  rw [quiet]
  generalize handleSvcFromEl0 spaces k mem frame = outcome at handled
  cases handled with
  | answered _ _ _ => exact .nothing _ (SameMail.refl k) rfl
  | readFault _ _ _ => exact .nothing _ (SameMail.refl k) rfl
  | writeFault nr _ _ _ _ _ _ => exact absurd nr (not_or.mpr ⟨recv, recvblk⟩)
  | sent nr _ _ _ _ _ _ => exact absurd nr (not_or.mpr ⟨send, sendblk⟩)
  | received nr _ _ _ _ _ _ _ => exact absurd nr (not_or.mpr ⟨recv, recvblk⟩)
  | yielded _ => exact .nothing _ (yield_mail k mem frame) (yield_memory k mem frame)
  | blocking call _ => exact .nothing _ (block_mail k mem frame call) (block_memory k mem frame call)
  | exited _ => exact .nothing _ (exit_mail spaces k mem frame) (exit_memory spaces k mem frame)

theorem effect_posted (dst : Nat) (body : List UInt8) (effects : ipcEffect spaces k mem frame = .posted dst body) :
    Posts spaces k mem frame dst body ∧
      handleSvcFromEl0 spaces k mem frame = .resumed (k.deposit dst body) mem (frame.setX 0 0) := by
  have effected := svc_effect spaces k mem frame
  rw [effects] at effected
  generalize handleSvcFromEl0 spaces k mem frame = outcome at effected
  cases effected with
  | posted _ _ posts => exact ⟨posts, rfl⟩

theorem effect_taken (effects : ipcEffect spaces k mem frame = .taken) :
    ∃ msg mem', Takes k frame msg ∧ spaces.writeUser (k.drain k.currentTid) mem (frame.x 0).toNat msg = some mem' ∧
      handleSvcFromEl0 spaces k mem frame = .resumed (k.drain k.currentTid) mem'
        ((frame.setX 0 (UInt64.ofNat msg.length)).setX 1 (UInt64.ofNat (k.table k.currentTid).mailboxFrom)) := by
  have effected := svc_effect spaces k mem frame
  rw [effects] at effected
  generalize handleSvcFromEl0 spaces k mem frame = outcome at effected
  cases effected with
  | taken msg mem' takes wrote => exact ⟨msg, mem', takes, wrote, rfl⟩

theorem effect_lost (effects : ipcEffect spaces k mem frame = .lost) :
    (0 < k.currentTid ∧ k.currentTid < maxTasks) ∧
      handleSvcFromEl0 spaces k mem frame = .parked .faultInHandler (k.drain k.currentTid) := by
  have effected := svc_effect spaces k mem frame
  rw [effects] at effected
  generalize handleSvcFromEl0 spaces k mem frame = outcome at effected
  cases effected with
  | lost _ takes _ => exact ⟨takes.inside, rfl⟩

theorem effect_nothing (effects : ipcEffect spaces k mem frame = .nothing) :
    SameMail k (handleSvcFromEl0 spaces k mem frame).kernel ∧ (handleSvcFromEl0 spaces k mem frame).memory mem = mem := by
  have effected := svc_effect spaces k mem frame
  rw [effects] at effected
  generalize handleSvcFromEl0 spaces k mem frame = outcome at effected
  cases effected with
  | nothing _ same kept => exact ⟨same, kept⟩

end

-- The history of the mail. A task is a slot and the number of spawns into it so
-- far.
structure Mails where
  lives : Nat → Nat
  post : Post (Nat × Nat) (List UInt8)

def Mails.owner (mails : Mails) (tid : Nat) : Nat × Nat := (tid, mails.lives tid)

def Mails.none : Mails := ⟨fun _ => 0, .empty⟩

-- A fault empties the mailbox of the task it ends. The mailbox of a task that
-- exits stays as it is until its slot is used again.
def Machine.mails (spaces : AddressSpaces) (m : Machine) (event : Event) (_ : Machine) (mails : Mails) : Mails :=
  match event with
  | .spawn _ =>
      match m.kernel.allocTask.1 with
      | none => mails
      | some fresh =>
          if m.enabled event = true then { mails with lives := Function.update mails.lives fresh (mails.lives fresh + 1) }
          else mails
  | .trap t =>
      if m.serves t = true ∧ t.kind = .synchronous then
        let own := mails.owner m.kernel.currentTid
        if isSvc t = true then
          match ipcEffect spaces m.kernel (m.memAt t) (t.frame m.cpu.spEl1) with
          | .nothing => mails
          | .posted dst body => { mails with post := mails.post.put ⟨own, mails.owner dst, body⟩ }
          | .taken => { mails with post := mails.post.take own }
          | .lost => { mails with post := mails.post.drop own }
        else if 0 < m.kernel.currentTid ∧ m.kernel.currentTid < maxTasks then { mails with post := mails.post.drop own }
        else mails
      else mails
  | _ => mails

-- The mailboxes in the task table hold the letters that are under way.
structure Carried (k : Kernel) (mails : Mails) : Prop where
  holds : ∀ tid, (k.table tid).letter =
    (mails.post.content (mails.owner tid)).map fun letter => (letter.sender.1, letter.body)
  later : ∀ tid n, mails.lives tid < n → mails.post.slot (tid, n) = Option.none

theorem letter_deposit (k : Kernel) (dst : Nat) (body : List UInt8) (some_ : body ≠ []) (short : body.length ≤ msgMax) :
    ((k.deposit dst body).table dst).letter = some (k.currentTid, body) := by
  have length : min body.length msgMax = body.length := Nat.min_eq_left short
  have whole : body.take msgMax = body := List.take_of_length_le short
  rw [Kernel.deposit_table, if_pos rfl, Task.letter]
  dsimp only
  rw [length, if_neg (fun no => some_ (List.length_eq_zero_iff.mp no)), Task.message, whole]
  have copied := take_copy_prefix (k.table dst).mailbox body
  rw [length, whole] at copied
  rw [copied]

theorem drain_letter (k : Kernel) (tid : Nat) (inside : 0 < k.currentTid ∧ k.currentTid < maxTasks) :
    ((k.drain k.currentTid).table tid).letter = if tid = k.currentTid then none else (k.table tid).letter := by
  have wakes : ∀ t : Task, (Kernel.wakesSender k.currentTid t).1.mail = t.mail := by
    intro t
    unfold Kernel.wakesSender
    split_ifs <;> rfl
  rw [Kernel.drain_table]
  by_cases here : tid = k.currentTid
  · dsimp only
    rw [if_pos here, if_pos here, here, if_pos inside, letter_of_mail _ _ (wakes _), letter_none]
  · dsimp only
    rw [if_neg here, if_neg here]
    split_ifs
    · exact letter_of_mail _ _ (wakes _)
    · rfl

theorem Posts.fits {spaces : AddressSpaces} {k : Kernel} {mem : UserMem} {frame : TrapFrame} {dst : Nat} {body : List UInt8}
    (posts : Posts spaces k mem frame dst body) : body ≠ [] ∧ body.length ≤ msgMax := by
  have read := posts.read
  have bytes : 0 < (frame.x 2).toNat := Nat.pos_of_ne_zero fun zero => posts.some_ (UInt64.toNat_inj.mp zero)
  unfold AddressSpaces.readUser at read
  split_ifs at read
  cases read
  constructor
  · intro empty
    have length := congrArg List.length empty
    simp only [List.length_map, List.length_range, List.length_nil, msgMax] at length
    omega
  · simp

theorem kill_empties (spaces : AddressSpaces) (k : Kernel) (mem : UserMem) (frame : TrapFrame)
    (user : 0 < k.currentTid ∧ k.currentTid < maxTasks) (live : (k.table k.currentTid).state ≠ .exited) :
    ((killTaskFromEl0 spaces k mem frame).kernel.table k.currentTid).mailboxLen = 0 := by
  have ended : (k.afterKill.table k.currentTid).mailboxLen = 0 := by
    rw [Kernel.afterKill, Kernel.edit_task_table, if_pos ⟨rfl, user.2, live⟩]
    rfl
  have kept := congrArg (·.2.1) (SameMail.switch k.afterKill frame k.currentTid)
  rw [kill_kernel_table spaces k mem frame user]
  exact kept.trans ended

theorem owner_inj (mails : Mails) (a b : Nat) : mails.owner a = mails.owner b ↔ a = b :=
  ⟨congrArg Prod.fst, fun same => by rw [same]⟩

namespace Carried

variable {k k' : Kernel} {mails : Mails}

theorem same (carried : Carried k mails) (mail : SameMail k k') : Carried k' mails :=
  ⟨fun tid => (letter_of_mail _ _ (mail tid)).trans (carried.holds tid), carried.later⟩

theorem room_iff (carried : Carried k mails) (tid : Nat) :
    (k.table tid).mailboxLen = 0 ↔ mails.post.slot (mails.owner tid) = none := by
  rw [← letter_none, carried.holds, Option.map_eq_none_iff, Post.content_none]

theorem posted (carried : Carried k mails) (dst : Nat) (body : List UInt8) (room : (k.table dst).mailboxLen = 0)
    (fits : body ≠ [] ∧ body.length ≤ msgMax) :
    Carried (k.deposit dst body)
      { mails with post := mails.post.put ⟨mails.owner k.currentTid, mails.owner dst, body⟩ } := by
  have free := (carried.room_iff dst).mp room
  have content := mails.post.put_content ⟨mails.owner k.currentTid, mails.owner dst, body⟩ free
  refine ⟨fun tid => ?_, fun tid n later => ?_⟩
  · change _ = Option.map _ ((mails.post.put _).content (mails.owner tid))
    rw [content]
    by_cases here : tid = dst
    · rw [here, if_pos rfl, letter_deposit k dst body fits.1 fits.2]
      rfl
    · rw [if_neg fun hit => here ((owner_inj mails tid dst).mp hit), Kernel.deposit_table, if_neg here]
      exact carried.holds tid
  · change n > mails.lives tid at later
    change (mails.post.put _).slot (tid, n) = _
    have apart : (tid, n) ≠ mails.owner dst := by
      intro hit
      cases congrArg Prod.fst hit
      cases congrArg Prod.snd hit
      exact Nat.lt_irrefl _ later
    rw [Post.put_slot mails.post _ free, Function.update_of_ne apart]
    exact carried.later tid n later

theorem emptied (carried : Carried k mails) (who : Nat) (post : Post (Nat × Nat) (List UInt8))
    (table : ∀ tid, (k'.table tid).letter = if tid = who then none else (k.table tid).letter)
    (content : ∀ i, post.content i = if i = mails.owner who then none else mails.post.content i)
    (slot : post.slot = Function.update mails.post.slot (mails.owner who) none) : Carried k' { mails with post := post } := by
  refine ⟨fun tid => ?_, fun tid n later => ?_⟩
  · change _ = Option.map _ (post.content (mails.owner tid))
    rw [table, content]
    by_cases here : tid = who
    · rw [here, if_pos rfl, if_pos rfl]
      rfl
    · rw [if_neg here, if_neg fun hit => here ((owner_inj mails tid who).mp hit)]
      exact carried.holds tid
  · change post.slot (tid, n) = _
    rw [slot]
    by_cases here : (tid, n) = mails.owner who
    · rw [here, Function.update_self]
    · rw [Function.update_of_ne here]
      exact carried.later tid n later

theorem taken (carried : Carried k mails) (inside : 0 < k.currentTid ∧ k.currentTid < maxTasks) :
    Carried (k.drain k.currentTid) { mails with post := mails.post.take (mails.owner k.currentTid) } :=
  carried.emptied k.currentTid _ (fun tid => drain_letter k tid inside) (mails.post.take_content _) (mails.post.take_slot _)

theorem lost (carried : Carried k mails) (inside : 0 < k.currentTid ∧ k.currentTid < maxTasks) :
    Carried (k.drain k.currentTid) { mails with post := mails.post.drop (mails.owner k.currentTid) } :=
  carried.emptied k.currentTid _ (fun tid => drain_letter k tid inside) (mails.post.drop_content _) (mails.post.drop_slot _)

theorem spawned (carried : Carried k mails) (fresh : Nat) (args : Kernel.SpawnArgs) :
    Carried ((k.setTask fresh args.initial).enqueue fresh)
      { mails with lives := Function.update mails.lives fresh (mails.lives fresh + 1) } := by
  refine ⟨fun tid => ?_, fun tid n later => ?_⟩
  · rw [Kernel.enqueue_table, Kernel.set_task_table]
    change _ = Option.map _ (mails.post.content (tid, Function.update mails.lives fresh (mails.lives fresh + 1) tid))
    by_cases here : tid = fresh
    · have none_ := (mails.post.content_none _).mpr (carried.later fresh (mails.lives fresh + 1) (Nat.lt_succ_self _))
      rw [here, Function.update_self, Function.update_self, none_]
      rfl
    · rw [Function.update_of_ne here, Function.update_of_ne here]
      exact carried.holds tid
  · change Function.update mails.lives fresh (mails.lives fresh + 1) tid < n at later
    by_cases here : tid = fresh
    · rw [here, Function.update_self] at later
      exact carried.later tid n (here ▸ Nat.lt_of_succ_lt later)
    · rw [Function.update_of_ne here] at later
      exact carried.later tid n later

end Carried

namespace Machine

section
variable (spaces : AddressSpaces) (address : Static → UInt64) (m : Machine) (mails : Mails)

theorem mails_other (event : Event) (after : Machine) (old : ∀ args, event ≠ .spawn args)
    (other : ∀ t, event = .trap t → ¬ (m.serves t = true ∧ t.kind = .synchronous)) :
    Machine.mails spaces m event after mails = mails := by
  cases event with
  | trap t => rw [Machine.mails, if_neg (other t rfl)]
  | spawn args => exact absurd rfl (old args)
  | _ => rfl

theorem mails_sync (t : Trap) (after : Machine) (serves : m.serves t = true) (sync : t.kind = .synchronous)
    (call : isSvc t = true) :
    Machine.mails spaces m (.trap t) after mails =
      match ipcEffect spaces m.kernel (m.memAt t) (t.frame m.cpu.spEl1) with
      | .nothing => mails
      | .posted dst body =>
          { mails with post := mails.post.put ⟨mails.owner m.kernel.currentTid, mails.owner dst, body⟩ }
      | .taken => { mails with post := mails.post.take (mails.owner m.kernel.currentTid) }
      | .lost => { mails with post := mails.post.drop (mails.owner m.kernel.currentTid) } := by
  rw [Machine.mails, if_pos ⟨serves, sync⟩]
  exact if_pos call

theorem carried_sync (grounded : m.Grounded) (carried : Carried m.kernel mails) (t : Trap) (serves : m.serves t = true) (sync : t.kind = .synchronous)
    (after : Machine) :
    Carried (m.handled spaces .lowerAArch64 t).kernel (Machine.mails spaces m (.trap t) after mails) := by
  cases call : isSvc t with
  | true =>
      rw [m.handled_svc spaces t call, mails_sync spaces m mails t after serves sync call]
      cases effects : ipcEffect spaces m.kernel (m.memAt t) (t.frame m.cpu.spEl1) with
      | nothing => exact carried.same (effect_nothing spaces m.kernel _ _ effects).1
      | posted dst body =>
          obtain ⟨posts, outcome⟩ := effect_posted spaces m.kernel _ _ dst body effects
          rw [outcome]
          exact carried.posted dst body posts.room posts.fits
      | taken =>
          obtain ⟨_, _, takes, _, outcome⟩ := effect_taken spaces m.kernel _ _ effects
          rw [outcome]
          exact carried.taken takes.inside
      | lost =>
          obtain ⟨inside, outcome⟩ := effect_lost spaces m.kernel _ _ effects
          rw [outcome]
          exact carried.lost inside
  | false =>
      rw [m.handled_fault spaces t sync call, Machine.mails, if_pos ⟨serves, sync⟩]
      dsimp only
      rw [call, if_neg Bool.false_ne_true]
      by_cases user : 0 < m.kernel.currentTid ∧ m.kernel.currentTid < maxTasks
      · rw [if_pos user]
        refine carried.emptied m.kernel.currentTid _ (fun tid => ?_) (mails.post.drop_content _) (mails.post.drop_slot _)
        by_cases own : tid = m.kernel.currentTid
        · have live := grounded.current ((m.serves_iff t).mp serves).2 (Nat.ne_of_gt user.1)
          rw [if_pos own, own]
          exact (letter_none _).mpr (kill_empties spaces m.kernel (m.memAt t) (t.frame m.cpu.spEl1) user live)
        · rw [if_neg own]
          exact letter_of_mail _ _ (kill_mail spaces m.kernel _ _ tid own)
      · rw [if_neg user, kill_kernel spaces m.kernel _ _ user]
        exact carried.same (SameMail.of_table rfl)

theorem fire_mail (event : Event) (quiet : event.exception = none) (old : ∀ args, event ≠ .spawn args) :
    SameMail m.kernel (m.fire spaces address event).kernel := by
  intro tid
  rcases fire_task spaces address m event quiet tid with same | ⟨gone, args, same⟩ | ⟨_, same⟩
  · rw [same]
  · have stays := ((fire_leaves spaces address m event quiet old).ended tid gone).1
    rw [same] at stays
    cases stays
  · rw [same]
    rfl

theorem carried_spawn (carried : Carried m.kernel mails) (args : Kernel.SpawnArgs) (enabled : m.enabled (.spawn args) = true)
    (after : Machine) :
    Carried (m.fire spaces address (.spawn args)).kernel (Machine.mails spaces m (.spawn args) after mails) := by
  simp only [fire, Machine.mails]
  rcases spawn_cases m.kernel args with ⟨full, same⟩ | ⟨fresh, free, _, _, same⟩
  · rw [full, same]
    exact carried
  · rw [free, same]
    dsimp only
    rw [if_pos enabled]
    exact carried.spawned fresh args

theorem carried_step (grounded : m.Grounded) (carried : Carried m.kernel mails) (event : Event) :
    Carried (m.next spaces address event).kernel
      (Machine.mails spaces m event (m.next spaces address event) mails) := by
  have step := kernel_step spaces address m event
  generalize m.next spaces address event = after at step
  cases step with
  | still unserved kernel =>
      have idle : Machine.mails spaces m event after mails = mails := by
        by_cases old : ∀ args, event ≠ .spawn args
        · exact mails_other spaces m mails event after old fun t same both =>
            m.not_serves t (same ▸ unserved.imp_right And.left) both.1
        · obtain ⟨args, rfl⟩ : ∃ args, event = .spawn args := by simpa only [ne_eq, not_forall, not_not] using old
          have disabled : ¬ m.enabled (.spawn args) = true := by
            rcases unserved with disabled | ⟨_, taken⟩
            · rw [disabled]
              exact fun no => (by cases no)
            · exact absurd rfl taken
          simp only [Machine.mails, if_neg disabled]
          split <;> rfl
      rw [kernel, idle]
      exact carried
  | calm enabled quiet fired =>
      by_cases old : ∀ args, event ≠ .spawn args
      · have idle : Machine.mails spaces m event after mails = mails :=
          mails_other spaces m mails event after old fun t same => (by rw [same] at quiet; cases quiet)
        rw [idle, fired]
        exact carried.same (fire_mail spaces address m event quiet old)
      · obtain ⟨args, rfl⟩ : ∃ args, event = .spawn args := by simpa only [ne_eq, not_forall, not_not] using old
        have born := carried_spawn spaces address m mails carried args enabled after
        rwa [← fired] at born
  | handled enabled source t taken down stack kernel =>
      have shown : Carried (m.handled spaces source t).kernel (Machine.mails spaces m event after mails) := by
        rcases handled_pends spaces m (fun _ => none) event source t taken enabled down after with
          ⟨rfl, rfl, serves, sync⟩ | ⟨async, _⟩
        · exact carried_sync spaces m mails grounded carried t serves sync after
        · have idle : Machine.mails spaces m event after mails = mails := by
            refine mails_other spaces m mails event after (fun args same => ?_) fun u same both => ?_
            · rw [same] at taken
              cases taken
            · rw [same] at taken
              cases taken
              exact absurd both.2 (async.resolve_left (by decide))
          rw [idle]
          rcases handled_async spaces m event source t taken async with same | same
          · rw [same]
            exact carried
          · rw [same]
            exact carried.same (tick_mail m.kernel _ _)
      rw [kernel]
      exact ⟨shown.holds, shown.later⟩

end

theorem boot_carried (spaces : AddressSpaces) (cpu : Cpu) : Carried (boot spaces cpu).kernel Mails.none :=
  ⟨fun _ => rfl, fun _ _ _ => rfl⟩

end Machine

end Opal
