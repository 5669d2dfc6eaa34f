import Opal.Machine
import Opal.SchedSpec
import Mathlib.Data.Nat.Find

set_option autoImplicit false

namespace Opal

-- The loop a handler runs over a buffer that EL0 named: where it starts, how
-- many bytes it is for, and whether it stores to them.
structure UserLoop where
  start : Nat
  count : Nat
  stores : Bool
  deriving DecidableEq

-- The loop of each of the five calls that take a buffer, past the call's own
-- checks. A receive stores as many bytes as the message has.
def userLoop (k : Kernel) (frame : TrapFrame) : Option UserLoop :=
  if frame.x 8 = sysWrite then
    let bufVa := (frame.x 1).toNat
    let len := (frame.x 2).toNat
    if frame.x 0 ≠ 1 then none
    else if len > 256 then none
    else if isValidUserRange bufVa len = false then none
    else some ⟨bufVa, len, false⟩
  else if frame.x 8 = sysSend ∨ frame.x 8 = sysSendblk then
    let bufVa := (frame.x 1).toNat
    let len := min (frame.x 2).toNat msgMax
    if frame.x 2 = 0 then none
    else if isValidUserRange bufVa len = false then none
    else some ⟨bufVa, len, false⟩
  else if frame.x 8 = sysRecv ∨ frame.x 8 = sysRecvblk then
    let bufVa := (frame.x 0).toNat
    let bufLen := min (frame.x 1).toNat msgMax
    if frame.x 1 = 0 then none
    else if isValidUserRange bufVa bufLen = false then none
    else
      match k.ipcRecv bufLen with
      | .error _ => none
      | .ok (msg, _, _) => some ⟨bufVa, msg.length, true⟩
  else none

-- A byte loop up to the first address that the tables refuse.
def touched (allowed : Nat → Bool) (va : Nat) : Nat → List Nat
  | 0 => []
  | left + 1 => va :: if allowed va then touched allowed (va + 1) left else []

namespace AddressSpaces

variable (spaces : AddressSpaces)

def allows (k : Kernel) (loop : UserLoop) (va : Nat) : Bool :=
  if loop.stores then spaces.writable k.ttbr0 va else spaces.readable k.ttbr0 va

-- Every address a handler dereferences for EL0, in order.
def dereferences (k : Kernel) (frame : TrapFrame) : List Nat :=
  match userLoop k frame with
  | none => []
  | some loop => touched (spaces.allows k loop) loop.start loop.count

end AddressSpaces

section
variable (allowed : Nat → Bool)

theorem mem_touched (va count a : Nat) :
    a ∈ touched allowed va count ↔ va ≤ a ∧ a < va + count ∧ ∀ b, va ≤ b → b < a → allowed b = true := by
  induction count generalizing va with
  | zero =>
      refine ⟨fun no => (by cases no), fun both => ?_⟩
      exact absurd (Nat.lt_of_le_of_lt both.1 both.2.1) (Nat.lt_irrefl va)
  | succ count ih =>
      by_cases first : allowed va = true
      · rw [touched, if_pos first, List.mem_cons, ih]
        constructor
        · intro either
          rcases either with rfl | ⟨low, high, before⟩
          · exact ⟨Nat.le_refl a, by omega, fun b from_ below_ => absurd from_ (by omega)⟩
          · refine ⟨by omega, by omega, fun b from_ below_ => ?_⟩
            by_cases here : b = va
            · rw [here]
              exact first
            · exact before b (by omega) below_
        · intro both
          obtain ⟨low, high, before⟩ := both
          by_cases here : a = va
          · exact .inl here
          · exact .inr ⟨by omega, by omega, fun b from_ below_ => before b (by omega) below_⟩
      · rw [touched, if_neg first, List.mem_singleton]
        constructor
        · rintro rfl
          exact ⟨Nat.le_refl a, by omega, fun b from_ below_ => absurd from_ (by omega)⟩
        · intro both
          obtain ⟨low, high, before⟩ := both
          by_contra later
          exact first (before va (Nat.le_refl va) (by omega))

theorem touched_refused (va count : Nat) :
    (∃ a ∈ touched allowed va count, allowed a = false) ↔ ∃ i < count, allowed (va + i) = false := by
  constructor
  · rintro ⟨a, member, refused⟩
    obtain ⟨low, high, _⟩ := (mem_touched allowed va count a).mp member
    refine ⟨a - va, by omega, ?_⟩
    rw [Nat.add_sub_cancel' low]
    exact refused
  · rintro ⟨i, inside, refused⟩
    have some_ : ∃ i, allowed (va + i) = false := ⟨i, refused⟩
    refine ⟨va + Nat.find some_, (mem_touched allowed va count _).mpr ⟨Nat.le_add_right va _, ?_, fun b from_ below_ => ?_⟩,
      Nat.find_spec some_⟩
    · exact Nat.add_lt_add_left (Nat.lt_of_le_of_lt (Nat.find_min' some_ refused) inside) va
    · have earlier := Nat.find_min some_ (m := b - va) (by omega)
      rw [Nat.add_sub_cancel' from_] at earlier
      exact Bool.eq_true_of_not_eq_false earlier

theorem all_allowed (va count : Nat) :
    ((List.range count).all fun i => allowed (va + i)) = false ↔ ∃ a ∈ touched allowed va count, allowed a = false := by
  rw [touched_refused, List.all_eq_false]
  constructor
  · rintro ⟨i, inside, refused⟩
    exact ⟨i, List.mem_range.mp inside, Bool.eq_false_of_not_eq_true refused⟩
  · rintro ⟨i, inside, refused⟩
    exact ⟨i, List.mem_range.mpr inside, by rw [refused]; exact Bool.false_ne_true⟩

end

section
variable (spaces : AddressSpaces) (k : Kernel) (mem : UserMem) (frame : TrapFrame)

theorem read_user_refused (va len : Nat) :
    spaces.readUser k mem va len = none ↔
      ∃ a ∈ touched (spaces.readable k.ttbr0) va len, spaces.readable k.ttbr0 a = false := by
  rw [← all_allowed, AddressSpaces.readUser]
  cases (List.range len).all fun i => spaces.readable k.ttbr0 (va + i) with
  | true => exact ⟨fun no => (by cases no), fun no => (by cases no)⟩
  | false => exact ⟨fun _ => rfl, fun _ => rfl⟩

theorem write_user_refused (va : Nat) (bytes : List UInt8) :
    spaces.writeUser k mem va bytes = none ↔
      ∃ a ∈ touched (spaces.writable k.ttbr0) va bytes.length, spaces.writable k.ttbr0 a = false := by
  rw [← all_allowed, AddressSpaces.writeUser]
  cases (List.range bytes.length).all fun i => spaces.writable k.ttbr0 (va + i) with
  | true => exact ⟨fun no => (by cases no), fun no => (by cases no)⟩
  | false => exact ⟨fun _ => rfl, fun _ => rfl⟩

-- The handler stopped in a data abort of its own.
def Outcome.aborted : Outcome → Bool
  | .parked .faultInHandler _ => true
  | _ => false

theorem block_not_aborted (mark unmark : Task → Task) : (blockToRetry k mem frame mark unmark).aborted = false := by
  unfold blockToRetry
  dsimp only
  by_cases switched : ((k.editTask k.currentTid mark).blockAndSwitch { frame with elr := frame.elr - 4 }).1 = true
  · rw [if_pos switched]
    rfl
  · rw [if_neg switched]
    rfl

theorem yield_not_aborted : (svcYield k mem frame).aborted = false := by
  unfold svcYield
  dsimp only
  split_ifs with user switched switched
  all_goals rfl

theorem sleep_not_aborted : (svcSleep k mem frame).aborted = false := by
  unfold svcSleep
  dsimp only
  split_ifs with nothing nobody switched
  all_goals rfl

theorem exit_not_aborted : (svcExit spaces k mem frame).aborted = false := by
  unfold svcExit
  dsimp only
  split_ifs with user switched switched
  all_goals rfl

theorem wait_not_aborted : (svcWait k mem frame).aborted = false := by
  unfold svcWait
  dsimp only
  cases k.tryWait (frame.x 0).toNat with
  | ok code => rfl
  | error e =>
      dsimp only
      split_ifs with again
      · exact block_not_aborted k mem frame _ _
      · rfl

theorem send_aborts (refused : Int64 → Outcome) (never : ∀ e, (refused e).aborted = false)
    (nr : frame.x 8 = sysSend ∨ frame.x 8 = sysSendblk) :
    (svcSendOr spaces k mem frame refused).aborted = true ↔
      ∃ loop, userLoop k frame = some loop ∧ ∃ a ∈ spaces.dereferences k frame, spaces.allows k loop a = false := by
  have other : frame.x 8 ≠ sysWrite := by
    rcases nr with same | same
    · rw [same]
      decide
    · rw [same]
      decide
  have shape : userLoop k frame =
      if frame.x 2 = 0 then none
      else if isValidUserRange (frame.x 1).toNat (min (frame.x 2).toNat msgMax) = false then none
      else some ⟨(frame.x 1).toNat, min (frame.x 2).toNat msgMax, false⟩ := by
    rw [userLoop, if_neg other, if_pos nr]
  unfold svcSendOr AddressSpaces.dereferences
  rw [shape]
  by_cases empty : frame.x 2 = 0
  · rw [if_pos empty, if_pos empty]
    simp [reply, Outcome.aborted]
  · rw [if_neg empty, if_neg empty]
    by_cases invalid : isValidUserRange (frame.x 1).toNat (min (frame.x 2).toNat msgMax) = false
    · rw [if_pos invalid, if_pos invalid]
      simp [reply, Outcome.aborted]
    · rw [if_neg invalid, if_neg invalid]
      have reads := read_user_refused spaces k mem (frame.x 1).toNat (min (frame.x 2).toNat msgMax)
      cases got : spaces.readUser k mem (frame.x 1).toNat (min (frame.x 2).toNat msgMax) with
      | none => exact ⟨fun _ => ⟨_, rfl, reads.mp got⟩, fun _ => rfl⟩
      | some msg =>
          rw [got] at reads
          refine iff_of_false (fun aborts => ?_) (fun refuses => ?_)
          · dsimp only at aborts
            cases sent : k.ipcSend (frame.x 0).toNat msg with
            | ok after =>
                rw [sent] at aborts
                cases aborts
            | error e =>
                rw [sent] at aborts
                cases (never e).symm.trans aborts
          · obtain ⟨loop, same, refuses⟩ := refuses
            cases same
            cases reads.mpr refuses

theorem recv_aborts (refused : Int64 → Outcome) (never : ∀ e, (refused e).aborted = false)
    (nr : frame.x 8 = sysRecv ∨ frame.x 8 = sysRecvblk) :
    (svcRecvOr spaces k mem frame refused).aborted = true ↔
      ∃ loop, userLoop k frame = some loop ∧ ∃ a ∈ spaces.dereferences k frame, spaces.allows k loop a = false := by
  have other : frame.x 8 ≠ sysWrite ∧ ¬ (frame.x 8 = sysSend ∨ frame.x 8 = sysSendblk) := by
    rcases nr with same | same
    · rw [same]
      decide
    · rw [same]
      decide
  have shape : userLoop k frame =
      if frame.x 1 = 0 then none
      else if isValidUserRange (frame.x 0).toNat (min (frame.x 1).toNat msgMax) = false then none
      else
        match k.ipcRecv (min (frame.x 1).toNat msgMax) with
        | .error _ => none
        | .ok (msg, _, _) => some ⟨(frame.x 0).toNat, msg.length, true⟩ := by
    rw [userLoop, if_neg other.1, if_neg other.2, if_pos nr]
  unfold svcRecvOr AddressSpaces.dereferences
  rw [shape]
  by_cases empty : frame.x 1 = 0
  · rw [if_pos empty, if_pos empty]
    simp [reply, Outcome.aborted]
  · rw [if_neg empty, if_neg empty]
    by_cases invalid : isValidUserRange (frame.x 0).toNat (min (frame.x 1).toNat msgMax) = false
    · rw [if_pos invalid, if_pos invalid]
      simp [reply, Outcome.aborted]
    · rw [if_neg invalid, if_neg invalid]
      cases took : k.ipcRecv (min (frame.x 1).toNat msgMax) with
      | error e =>
          refine ⟨fun aborts => ?_, fun refuses => ?_⟩
          · dsimp only at aborts
            rw [never e] at aborts
            cases aborts
          · obtain ⟨_, no, _⟩ := refuses
            cases no
      | ok taken =>
          obtain ⟨msg, sender, after⟩ := taken
          obtain ⟨_, _, _, _, drained⟩ := (Kernel.ipc_recv_ok _ _ _ _ _).mp took
          have root : after.ttbr0 = k.ttbr0 := by
            rw [drained]
            exact (Kernel.SameTask.drain k k.currentTid).root
          have writes := write_user_refused spaces after mem (frame.x 0).toNat msg
          rw [root] at writes
          dsimp only
          cases got : spaces.writeUser after mem (frame.x 0).toNat msg with
          | none => exact ⟨fun _ => ⟨_, rfl, writes.mp got⟩, fun _ => rfl⟩
          | some mem' =>
              rw [got] at writes
              refine ⟨fun no => (by cases no), fun refuses => ?_⟩
              obtain ⟨loop, same, refuses⟩ := refuses
              cases same
              exact absurd (writes.mpr refuses) (fun no => (by cases no))

theorem write_aborts (nr : frame.x 8 = sysWrite) :
    (svcWrite spaces k mem frame).aborted = true ↔
      ∃ loop, userLoop k frame = some loop ∧ ∃ a ∈ spaces.dereferences k frame, spaces.allows k loop a = false := by
  have shape : userLoop k frame =
      if frame.x 0 ≠ 1 then none
      else if (frame.x 2).toNat > 256 then none
      else if isValidUserRange (frame.x 1).toNat (frame.x 2).toNat = false then none
      else some ⟨(frame.x 1).toNat, (frame.x 2).toNat, false⟩ := by
    rw [userLoop, if_pos nr]
  unfold svcWrite AddressSpaces.dereferences
  rw [shape]
  by_cases other : frame.x 0 ≠ 1
  · rw [if_pos other, if_pos other]
    simp [reply, Outcome.aborted]
  · rw [if_neg other, if_neg other]
    by_cases long : (frame.x 2).toNat > 256
    · rw [if_pos long, if_pos long]
      simp [reply, Outcome.aborted]
    · rw [if_neg long, if_neg long]
      by_cases invalid : isValidUserRange (frame.x 1).toNat (frame.x 2).toNat = false
      · rw [if_pos invalid, if_pos invalid]
        simp [reply, Outcome.aborted]
      · rw [if_neg invalid, if_neg invalid]
        have reads := read_user_refused spaces k mem (frame.x 1).toNat (frame.x 2).toNat
        cases got : spaces.readUser k mem (frame.x 1).toNat (frame.x 2).toNat with
        | none => exact ⟨fun _ => ⟨_, rfl, reads.mp got⟩, fun _ => rfl⟩
        | some bytes =>
            rw [got] at reads
            refine ⟨fun no => (by cases no), fun refuses => ?_⟩
            obtain ⟨loop, same, refuses⟩ := refuses
            cases same
            exact absurd (reads.mpr refuses) (fun no => (by cases no))

-- dereferences lists what the handlers touch: a handler aborts exactly where one
-- of these addresses is refused.
theorem aborts_iff :
    (handleSvcFromEl0 spaces k mem frame).aborted = true ↔
      ∃ loop, userLoop k frame = some loop ∧ ∃ a ∈ spaces.dereferences k frame, spaces.allows k loop a = false := by
  have blocks := block_not_aborted k mem frame
  by_cases buffers : frame.x 8 = sysWrite ∨ frame.x 8 = sysSend ∨ frame.x 8 = sysRecv ∨ frame.x 8 = sysRecvblk ∨
      frame.x 8 = sysSendblk
  · rcases buffers with write | send | recv | recvblk | sendblk
    · rw [handleSvcFromEl0, if_pos write]
      exact write_aborts spaces k mem frame write
    · have arm : handleSvcFromEl0 spaces k mem frame = svcSend spaces k mem frame := by
        rw [handleSvcFromEl0, send]
        rfl
      rw [arm]
      exact send_aborts spaces k mem frame _ (fun _ => rfl) (.inl send)
    · have arm : handleSvcFromEl0 spaces k mem frame = svcRecv spaces k mem frame := by
        rw [handleSvcFromEl0, recv]
        rfl
      rw [arm]
      exact recv_aborts spaces k mem frame _ (fun _ => rfl) (.inl recv)
    · have arm : handleSvcFromEl0 spaces k mem frame = svcRecvblk spaces k mem frame := by
        rw [handleSvcFromEl0, recvblk]
        rfl
      rw [arm]
      exact recv_aborts spaces k mem frame _ (fun _ => blocks id id) (.inr recvblk)
    · have arm : handleSvcFromEl0 spaces k mem frame = svcSendblk spaces k mem frame := by
        rw [handleSvcFromEl0, sendblk]
        rfl
      rw [arm]
      refine send_aborts spaces k mem frame _ (fun e => ?_) (.inr sendblk)
      split_ifs
      · rfl
      · exact blocks _ _
      · rfl
  · push Not at buffers
    obtain ⟨write, send, recv, recvblk, sendblk⟩ := buffers
    have none_ : userLoop k frame = none := by
      rw [userLoop, if_neg write, if_neg (not_or.mpr ⟨send, sendblk⟩), if_neg (not_or.mpr ⟨recv, recvblk⟩)]
    rw [none_]
    have clean : (handleSvcFromEl0 spaces k mem frame).aborted = false := by
      rw [handleSvcFromEl0, if_neg write]
      split_ifs
      · exact yield_not_aborted k mem frame
      · exact sleep_not_aborted k mem frame
      · exact exit_not_aborted spaces k mem frame
      · exact wait_not_aborted k mem frame
      · rfl
    refine ⟨fun aborts => ?_, fun no => ?_⟩
    · rw [clean] at aborts
      cases aborts
    · obtain ⟨_, no, _⟩ := no
      cases no

theorem valid_range_end (va len : Nat) (valid : ¬ isValidUserRange va len = false) : va + len ≤ kernelBase := by
  unfold isValidUserRange at valid
  split_ifs at valid with high empty wraps
  · exact absurd rfl valid
  · omega
  · exact absurd rfl valid
  · exact of_decide_eq_true (Bool.eq_true_of_not_eq_false valid)

theorem user_loop_end (loop : UserLoop) (runs : userLoop k frame = some loop) : loop.start + loop.count ≤ kernelBase := by
  unfold userLoop at runs
  dsimp only at runs
  split_ifs at runs with write fd long invalid send empty invalid recv empty invalid
  · cases runs
    exact valid_range_end _ _ invalid
  · cases runs
    exact valid_range_end _ _ invalid
  · cases took : k.ipcRecv (min (frame.x 1).toNat msgMax) with
    | error e =>
        rw [took] at runs
        cases runs
    | ok taken =>
        obtain ⟨msg, sender, after⟩ := taken
        rw [took] at runs
        cases runs
        obtain ⟨_, _, copied, _⟩ := (Kernel.ipc_recv_ok _ _ _ _ _).mp took
        have short : msg.length ≤ min (frame.x 1).toNat msgMax := by
          rw [copied]
          exact Nat.le_trans (List.length_take_le _ _) (Nat.min_le_right _ _)
        have whole := valid_range_end _ _ invalid
        dsimp only
        omega

-- The bytes the loop is for lie in the low 2^48, or one of them there stops it.
def LowBuffer (spaces : AddressSpaces) (k : Kernel) (frame : TrapFrame) : Prop :=
  ∀ loop, userLoop k frame = some loop →
    loop.count = 0 ∨ loop.start + loop.count ≤ 2 ^ 48 ∨
      ∃ a, loop.start ≤ a ∧ a < 2 ^ 48 ∧ spaces.allows k loop a = false

end

-- No handler touches the kernel's half for EL0, and none wraps around. It
-- touches nothing but the low half in exactly the calls whose buffer does not
-- get past it.
theorem user_pointers_confined_iff (spaces : AddressSpaces) (k : Kernel) (frame : TrapFrame) :
    (∀ a ∈ spaces.dereferences k frame, a < kernelBase) ∧
      ((∀ a ∈ spaces.dereferences k frame, a >>> 48 = 0) ↔ LowBuffer spaces k frame) := by
  have low : ∀ a : Nat, a >>> 48 = 0 ↔ a < 2 ^ 48 := by
    intro a
    rw [Nat.shiftRight_eq_div_pow, Nat.div_eq_zero_iff_lt (by decide)]
  unfold AddressSpaces.dereferences LowBuffer
  cases runs : userLoop k frame with
  | none =>
      exact ⟨fun a no => absurd no List.not_mem_nil, fun _ loop no => (by cases no), fun _ a no => absurd no List.not_mem_nil⟩
  | some loop =>
      have end_ := user_loop_end k frame loop runs
      refine ⟨fun a member => ?_, fun confined found same => ?_, fun within a member => ?_⟩
      · obtain ⟨_, below_, _⟩ := (mem_touched _ _ _ _).mp member
        exact Nat.lt_of_lt_of_le below_ end_
      · cases same
        by_contra past
        push Not at past
        obtain ⟨some_, over_, allowed⟩ := past
        -- The first address past the low half is reached.
        have reached : max loop.start (2 ^ 48) ∈ touched (spaces.allows k loop) loop.start loop.count := by
          refine (mem_touched _ _ _ _).mpr ⟨Nat.le_max_left _ _, by omega, fun b from_ below_ => ?_⟩
          exact Bool.eq_true_of_not_eq_false (allowed b from_ (by omega))
        have inside := (low _).mp (confined _ reached)
        omega
      · obtain ⟨from_, below_, before⟩ := (mem_touched _ _ _ _).mp member
        rw [low]
        rcases within loop rfl with empty | fits | ⟨b, after, inside, refused⟩
        · omega
        · omega
        · by_contra past
          have passed := before b after (by omega)
          rw [refused] at passed
          cases passed

-- write(1, 1 << 48, 1)
def farWrite : TrapFrame := { TrapFrame.empty with x := registers sysWrite [1, 0x1000000000000, 1] }

theorem far_write_leaves_low_half :
    ¬ ∀ a ∈ flat.dereferences (Machine.boot flat coldCpu).kernel farWrite, a >>> 48 = 0 := by
  intro confined
  have first := confined (2 ^ 48) (by decide)
  exact absurd first (by decide)

end Opal
