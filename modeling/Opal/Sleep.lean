import Opal.Clock
import Opal.Letters
import Opal.ReadyQueue

set_option autoImplicit false

namespace Opal

namespace Kernel

section
variable (k : Kernel) (frame : TrapFrame) (tid : Nat)

theorem deposit_still_blocked (dst : Nat) (data : List UInt8) :
    ((k.deposit dst data).table tid).state = .blocked ↔ (k.table tid).state = .blocked ∧ tid ≠ dst := by
  rw [deposit_table]
  by_cases here : tid = dst
  · subst here
    rw [if_pos rfl]
    dsimp only
    split_ifs with asleep
    · exact ⟨fun no => (by cases no), fun both => absurd rfl both.2⟩
    · exact ⟨fun still => absurd still asleep, fun both => both.1⟩
  · rw [if_neg here]
    exact ⟨fun still => ⟨still, here⟩, And.left⟩

theorem drain_still_blocked (cur : Nat) (inside : 0 < tid ∧ tid < maxTasks) (other : tid ≠ cur) :
    ((k.drain cur).table tid).state = .blocked ↔ (k.table tid).state = .blocked ∧ (k.table tid).blockedSendDst ≠ cur := by
  rw [drain_table]
  simp only [if_neg other, if_pos inside, wakesSender]
  split_ifs with woken
  · exact ⟨fun no => (by cases no), fun both => absurd woken.2 both.2⟩
  · exact ⟨fun still => ⟨still, fun marked => woken ⟨still, marked⟩⟩, And.left⟩

theorem save_and_switch_still_blocked (low : tid < maxTasks) (other : tid ≠ k.currentTid) (absent : tid ∉ k.ready) :
    ((k.saveAndSwitch frame).2.1.table tid).state = .blocked ↔ (k.table tid).state = .blocked := by
  have head : (k.saveCurrent frame).ready.head? ≠ some tid := by
    intro first
    have member := List.mem_of_head? first
    rw [save_ready] at member
    split_ifs at member
    · rcases List.mem_append.mp (List.mem_of_mem_take member) with old | new
      · exact absent old
      · exact other (List.mem_singleton.mp new)
    · exact absent member
  rw [saveAndSwitch, switch_still_blocked _ frame tid low, save_table, if_neg (fun all => other all.1)]
  exact and_iff_left head

theorem block_and_switch_still_blocked (low : tid < maxTasks) (other : tid ≠ k.currentTid) (absent : tid ∉ k.ready) :
    ((k.blockAndSwitch frame).2.1.table tid).state = .blocked ↔ (k.table tid).state = .blocked := by
  unfold blockAndSwitch
  split_ifs
  · exact Iff.rfl
  · have head : (k.blockCurrent frame).ready.head? ≠ some tid := by
      rw [blockCurrent, edit_task_ready]
      exact fun first => absent (List.mem_of_head? first)
    rw [switch_still_blocked _ frame tid low, blockCurrent, edit_task_table, if_neg (fun all => other all.1)]
    exact and_iff_left head

theorem wake_still_blocked (inside : 0 < tid ∧ tid < maxTasks) :
    (k.wakeSleepers.table tid).state = .blocked ↔
      (k.table tid).state = .blocked ∧ ((k.table tid).wakeTick = 0 ∨ k.ticks < (k.table tid).wakeTick) := by
  rw [wakeSleepers, sweep_table, if_pos inside]
  unfold wakesSleeper
  split_ifs with never ahead awake
  · exact ⟨fun still => ⟨still, .inl never⟩, And.left⟩
  · exact ⟨fun still => ⟨still, .inr ahead⟩, And.left⟩
  · exact ⟨fun still => absurd still awake, fun both => absurd both.1 awake⟩
  · refine ⟨fun no => (by cases no), fun both => ?_⟩
    exact (both.2.resolve_left never) |> fun later => absurd later ahead

end

end Kernel

section
variable (spaces : AddressSpaces) (k : Kernel) (mem : UserMem) (frame : TrapFrame) (tid : Nat)

theorem tick_still_blocked (inside : 0 < tid ∧ tid < maxTasks) (other : tid ≠ k.currentTid) (absent : tid ∉ k.ready) :
    ((serviceTick k mem frame).kernel.table tid).state = .blocked ↔
      (k.table tid).state = .blocked ∧ ((k.table tid).wakeTick = 0 ∨ k.ticks + 1 < (k.table tid).wakeTick) := by
  have woken := Kernel.wake_still_blocked (onTick k) tid inside
  have current : (onTick k).wakeSleepers.currentTid = k.currentTid := Kernel.sweep_current _ _
  have switched : (((onTick k).wakeSleepers.saveAndSwitch frame).2.1.table tid).state = .blocked ↔
      ((onTick k).wakeSleepers.table tid).state = .blocked := by
    have apart : tid ≠ (onTick k).wakeSleepers.currentTid := by rwa [current]
    refine ⟨fun sleeps => ((Kernel.Leaves.save_and_switch _ frame).asleep tid apart sleeps).1, fun still => ?_⟩
    refine (Kernel.save_and_switch_still_blocked _ frame tid inside.2 apart fun member => ?_).mpr still
    rw [Kernel.wakeSleepers, Kernel.sweep_ready] at member
    rcases List.mem_append.mp (List.mem_of_mem_take member) with old | new
    · exact absent old
    · obtain ⟨_, wakes⟩ := (Kernel.mem_scan_wakes _ _ tid).mp new
      rw [Kernel.wakeSleepers, Kernel.sweep_table, if_pos inside] at still
      unfold Kernel.wakesSleeper at wakes still
      split_ifs at wakes still
  have whole : ((serviceTick k mem frame).kernel.table tid).state = .blocked ↔
      ((onTick k).wakeSleepers.table tid).state = .blocked := by
    unfold serviceTick
    dsimp only
    split_ifs
    · exact switched
    · exact switched
    · exact Iff.rfl
  rw [whole, woken]
  rfl

theorem yield_still_blocked (low : tid < maxTasks) (other : tid ≠ k.currentTid) (absent : tid ∉ k.ready) :
    ((svcYield k mem frame).kernel.table tid).state = .blocked ↔ (k.table tid).state = .blocked := by
  have switched := Kernel.save_and_switch_still_blocked k frame tid low other absent
  unfold svcYield
  dsimp only
  by_cases user : k.currentTid ≠ 0
  · rw [if_pos user]
    split_ifs
    · exact switched
    · exact switched
  · rw [if_neg user, if_neg (fun no => (by cases no))]
    exact Iff.rfl

theorem block_still_blocked (call : Call) (low : tid < maxTasks) (other : tid ≠ k.currentTid) (absent : tid ∉ k.ready) :
    ((blockFor k mem frame call).kernel.table tid).state = .blocked ↔ (k.table tid).state = .blocked := by
  have marked : (blockedKernel k call).table tid = k.table tid := by
    rw [blockedKernel, Kernel.edit_task_table, if_neg (fun all => other all.1)]
  have switched : (((blockedKernel k call).blockAndSwitch (call.saved frame)).2.1.table tid).state = .blocked ↔
      (k.table tid).state = .blocked := by
    rw [← marked]
    refine Kernel.block_and_switch_still_blocked _ _ tid low ?_ ?_
    · rwa [blockedKernel, Kernel.edit_task_current]
    · rwa [blockedKernel, Kernel.edit_task_ready]
  unfold blockFor
  dsimp only
  split_ifs
  · exact switched
  · change (((Kernel.editTask _ _ _).table tid).state = _ ↔ _)
    rw [Kernel.edit_task_table, if_neg (fun all => other all.1)]
    exact switched

theorem drain_empties (inside : 0 < k.currentTid ∧ k.currentTid < maxTasks) (full : 0 < (k.table k.currentTid).mailboxLen) :
    ¬ SameMail k (k.drain k.currentTid) := by
  intro same
  have letter := letter_of_mail _ _ (same k.currentTid)
  rw [drain_letter k _ inside, if_pos rfl] at letter
  exact Nat.ne_of_gt full ((letter_none _).mp letter.symm)

theorem deposit_fills (dst : Nat) (msg : List UInt8) (empty : (k.table dst).mailboxLen = 0) (some_ : msg ≠ []) :
    ¬ SameMail k (k.deposit dst msg) := by
  intro same
  have length := congrArg (·.2.1) (same dst)
  change ((k.deposit dst msg).table dst).mailboxLen = (k.table dst).mailboxLen at length
  rw [Kernel.deposit_table, if_pos rfl, empty] at length
  have := List.length_pos_of_ne_nil some_
  simp only [msgMax] at length
  omega

-- A call that touches no mailbox and does not end its task either leaves the
-- scheduler alone, or yields, or blocks.
theorem svc_quiet (effects : ipcEffect spaces k mem frame = .nothing) (stays : ¬ (frame.x 8 = sysExit ∨ frame.x 8 = sysExitCode)) :
    (handleSvcFromEl0 spaces k mem frame).kernel = k ∨ handleSvcFromEl0 spaces k mem frame = svcYield k mem frame ∨
      ∃ call, handleSvcFromEl0 spaces k mem frame = blockFor k mem frame call := by
  have handled := svc_handled spaces k mem frame
  have mail := (effect_nothing spaces k mem frame effects).1
  generalize handleSvcFromEl0 spaces k mem frame = outcome at handled mail ⊢
  cases handled with
  | answered _ _ _ => exact .inl rfl
  | readFault _ _ _ => exact .inl rfl
  | writeFault _ _ _ _ after took _ =>
      obtain ⟨inside, full, _, _, rfl⟩ := (Kernel.ipc_recv_ok _ _ _ _ _).mp took
      exact absurd mail (drain_empties k inside full)
  | sent _ some_ msg _ read accepted _ =>
      obtain ⟨_, _, empty, rfl⟩ := (Kernel.ipc_send_ok _ _ _ _).mp accepted
      refine absurd mail (deposit_fills k _ msg empty fun none_ => some_ (UInt64.toNat_inj.mp ?_))
      have length := read_user_length spaces k mem _ _ msg read
      rw [none_] at length
      simp only [List.length_nil, msgMax] at length
      change (frame.x 2).toNat = 0
      omega
  | received _ _ _ _ _ took _ _ =>
      obtain ⟨inside, full, _, _, rfl⟩ := (Kernel.ipc_recv_ok _ _ _ _ _).mp took
      exact absurd mail (drain_empties k inside full)
  | yielded _ => exact .inr (.inl rfl)
  | blocking call _ => exact .inr (.inr ⟨call, rfl⟩)
  | exited nr => exact absurd nr stays

-- What a call of the running task wakes a sleeper by: a message for it, or the
-- marks of an earlier call of the sleeper's own that has not blocked it since.
def Rouses (spaces : AddressSpaces) (k : Kernel) (mem : UserMem) (frame : TrapFrame) (tid : Nat) : Prop :=
  match ipcEffect spaces k mem frame with
  | .posted dst _ => tid = dst
  | .taken | .lost => (k.table tid).blockedSendDst = k.currentTid
  | .nothing => (frame.x 8 = sysExit ∨ frame.x 8 = sysExitCode) ∧ (k.table tid).waitingOn = k.currentTid

theorem svc_still_blocked (inside : 0 < tid ∧ tid < maxTasks) (other : tid ≠ k.currentTid) (absent : tid ∉ k.ready)
    (user : k.currentTid ≠ 0) :
    ((handleSvcFromEl0 spaces k mem frame).kernel.table tid).state = .blocked ↔
      (k.table tid).state = .blocked ∧ ¬ Rouses spaces k mem frame tid := by
  unfold Rouses
  cases effects : ipcEffect spaces k mem frame with
  | posted dst body =>
      rw [(effect_posted spaces k mem frame dst body effects).2]
      exact Kernel.deposit_still_blocked k tid dst body
  | taken =>
      obtain ⟨_, _, _, _, answered⟩ := effect_taken spaces k mem frame effects
      rw [answered]
      exact Kernel.drain_still_blocked k tid k.currentTid inside other
  | lost =>
      rw [(effect_lost spaces k mem frame effects).2]
      exact Kernel.drain_still_blocked k tid k.currentTid inside other
  | nothing =>
      dsimp only
      by_cases ends : frame.x 8 = sysExit ∨ frame.x 8 = sysExitCode
      · have head : k.ready.head? ≠ some tid := fun first => absent (List.mem_of_head? first)
        rw [handled_exits spaces k mem frame ends, exit_still_blocked spaces k mem frame tid inside other user]
        simp only [ends, true_and, head, ne_eq, not_false_eq_true, and_true]
      · have quiet : ((handleSvcFromEl0 spaces k mem frame).kernel.table tid).state = .blocked ↔ (k.table tid).state = .blocked := by
          rcases svc_quiet spaces k mem frame effects ends with same | same | ⟨call, same⟩
          · rw [same]
          · rw [same]
            exact yield_still_blocked k mem frame tid inside.2 other absent
          · rw [same]
            exact block_still_blocked k mem frame tid call inside.2 other absent
        simp only [ends, false_and, not_false_eq_true, and_true]
        exact quiet

end

-- In every sleep that has blocked: Blocked before its deadline, and from then
-- on Running, or Ready and queued once.
def Punctual (k : Kernel) (pend : Nat → Option Pending) : Prop :=
  ∀ tid p n, pend tid = some p → p.call = .sleep n →
    (k.ticks < deadline p.since n → (k.table tid).state = .blocked) ∧
      (deadline p.since n ≤ k.ticks →
        (k.table tid).state = .running ∨ (k.table tid).state = .ready ∧ k.ready.count tid = 1)

def Slumbers (k : Kernel) (pend : Nat → Option Pending) : Prop :=
  ∀ tid p n, pend tid = some p → p.call = .sleep n → ((k.table tid).state = .blocked ↔ k.ticks < deadline p.since n)

theorem punctual_iff (k : Kernel) (pend : Nat → Option Pending) (lists : Listing k.ready fun tid => (k.table tid).state = .ready)
    (live : ∀ tid p, pend tid = some p → (k.table tid).state ≠ .exited) : Punctual k pend ↔ Slumbers k pend := by
  refine forall_congr' fun tid => forall_congr' fun p => forall_congr' fun n => forall_congr' fun waits => forall_congr' fun _ => ?_
  constructor
  · rintro ⟨early, late⟩
    refine ⟨fun sleeps => ?_, early⟩
    by_contra due
    rcases late (UInt64.not_lt.mp due) with runs | ⟨ready, _⟩
    · rw [runs] at sleeps
      cases sleeps
    · rw [ready] at sleeps
      cases sleeps
  · intro exact_
    refine ⟨exact_.mpr, fun due => ?_⟩
    have awake : (k.table tid).state ≠ .blocked := fun sleeps => absurd (exact_.mp sleeps) (UInt64.not_lt.mpr due)
    cases state : (k.table tid).state with
    | exited => exact absurd state (live tid p waits)
    | ready => exact .inr ⟨rfl, List.count_eq_one_of_mem lists.distinct ((lists.mem_iff tid).mpr state)⟩
    | running => exact .inl rfl
    | blocked => exact absurd state awake

-- The saturating sum is ahead of a clock that has not run out.
theorem deadline_ahead (now n : UInt64) (some_ : n ≠ 0) (room : now.toNat < 2 ^ 64 - 1) : now < deadline now n := by
  have positive : 0 < n.toNat := Nat.pos_of_ne_zero fun zero => some_ (UInt64.toNat_inj.mp zero)
  rw [deadline, UInt64.lt_iff_toNat_lt]
  split_ifs with fits
  · rw [UInt64.toNat_add, Nat.mod_eq_of_lt fits]
    omega
  · rw [UInt64.toNat_ofNat', Nat.mod_eq_of_lt (by omega)]
    exact room

theorem deadline_not_zero (now n : UInt64) (some_ : n ≠ 0) : deadline now n ≠ 0 := by
  have positive : 0 < n.toNat := Nat.pos_of_ne_zero fun zero => some_ (UInt64.toNat_inj.mp zero)
  intro zero
  have value := congrArg UInt64.toNat zero
  rw [deadline] at value
  split_ifs at value with fits
  · rw [UInt64.toNat_add, Nat.mod_eq_of_lt fits] at value
    simp only [UInt64.reduceToNat] at value
    omega
  · rw [UInt64.toNat_ofNat', Nat.mod_eq_of_lt (by omega)] at value
    simp only [UInt64.reduceToNat] at value
    omega

namespace Machine

-- A call that rouses a task before its deadline.
def WakesEarly (spaces : AddressSpaces) (m : Machine) (pend : Nat → Option Pending) : Event → Prop
  | .trap t =>
      m.serves t = true ∧ isSvc t = true ∧
        ∃ tid p n, pend tid = some p ∧ p.call = .sleep n ∧ m.kernel.ticks < deadline p.since n ∧
          Rouses spaces m.kernel (m.memAt t) (t.frame m.cpu.spEl1) tid
  | _ => False

section
variable (spaces : AddressSpaces) (address : Static → UInt64) (m : Machine) (pend : Nat → Option Pending)

theorem fire_sleeper (event : Event) (quiet : event.exception = none) (tid : Nat) (absent : tid ∉ m.kernel.ready)
    (slept : (m.kernel.table tid).state = .blocked) :
    (m.fire spaces address event).kernel.table tid = m.kernel.table tid := by
  cases event with
  | spawn args =>
      simp only [fire]
      rcases spawn_cases m.kernel args with ⟨_, same⟩ | ⟨fresh, _, _, gone, same⟩
      · rw [same]
      · have here : tid ≠ fresh := by
          rintro rfl
          rw [slept] at gone
          cases gone
        rw [same, Kernel.enqueue_table, Kernel.set_task_table, Function.update_of_ne here]
  | drop unmask =>
      rcases drop_cases m unmask with ⟨_, same⟩ | ⟨_, _, _, _, same⟩ | ⟨first, _, t, waiting, _, same⟩
      · rw [fire, same]
      · rw [fire, same]
        rfl
      · have here : tid ≠ first := by
          rintro rfl
          exact absent (by rw [waiting]; exact List.mem_cons_self)
        rw [fire, same]
        simp [dropped, Kernel.record, Kernel.setTask, Kernel.popped, here]
  | enter residue =>
      simp only [fire]
      split
      · rfl
      · rfl
  | el1 t => cases quiet
  | trap t => cases quiet
  | _ => rfl

theorem slumbers_calm (event : Event) (quiet : event.exception = none)
    (lists : Listing m.kernel.ready fun tid => (m.kernel.table tid).state = .ready) (slumbers : Slumbers m.kernel pend) :
    Slumbers (m.fire spaces address event).kernel pend := by
  intro tid p n waits sleeps
  rw [fire_ticks spaces address m event quiet, ← slumbers tid p n waits sleeps]
  constructor
  · intro still
    rwa [← fire_asleep spaces address m event quiet tid still]
  · intro slept
    have absent : tid ∉ m.kernel.ready := fun member => by
      rw [(lists.mem_iff tid).mp member] at slept
      cases slept
    rwa [fire_sleeper spaces address m event quiet tid absent slept]

end

end Machine

theorem slumbers_tick (k : Kernel) (mem : UserMem) (frame : TrapFrame) (pend : Nat → Option Pending)
    (lists : Listing k.ready fun tid => (k.table tid).state = .ready) (sleepers : Sleepers k pend)
    (confined : ∀ tid, (k.table tid).state ≠ .exited → 0 < tid ∧ tid < maxTasks)
    (asks : ∀ tid p n, pend tid = some p → p.call = .sleep n → n ≠ 0) (room : k.ticks.toNat + 1 < 2 ^ 64)
    (slumbers : Slumbers k pend) : Slumbers (serviceTick k mem frame).kernel pend := by
  intro tid p n waits sleeps
  have later : k.ticks < k.ticks + 1 := by
    rw [UInt64.lt_iff_toNat_lt, UInt64.toNat_add, UInt64.toNat_one, Nat.mod_eq_of_lt room]
    omega
  rw [tick_ticks]
  by_cases slept : (k.table tid).state = .blocked
  · have other : tid ≠ k.currentTid := by
      rintro rfl
      exact sleepers.awake p waits slept
    have absent : tid ∉ k.ready := fun member => by
      rw [(lists.mem_iff tid).mp member] at slept
      cases slept
    have mark := sleepers.marked tid p waits slept
    rw [sleeps] at mark
    change (k.table tid).wakeTick = deadline p.since n at mark
    rw [tick_still_blocked k mem frame tid (confined tid (sleepers.live tid p waits)) other absent, mark]
    have never := deadline_not_zero p.since n (asks tid p n waits sleeps)
    simp only [slept, true_and, never, false_or]
  · have due : ¬ k.ticks < deadline p.since n := fun early => slept ((slumbers tid p n waits sleeps).mpr early)
    refine iff_of_false (tick_keeps_awake k mem frame tid slept) fun early => due (UInt64.lt_trans later early)

theorem block_sleeps (k : Kernel) (frame : TrapFrame) (call : Call) (low : k.currentTid < maxTasks)
    (live : (k.table k.currentTid).state ≠ .exited) (absent : k.currentTid ∉ k.ready)
    (finds : ((blockedKernel k call).blockAndSwitch (call.saved frame)).1 = true) :
    (((blockedKernel k call).blockAndSwitch (call.saved frame)).2.1.table k.currentTid).state = .blocked := by
  have user := block_finds_user k frame call finds
  have current : (blockedKernel k call).currentTid = k.currentTid := Kernel.edit_task_current k _ _
  have marked : ((blockedKernel k call).table k.currentTid).state ≠ .exited := by
    rw [blockedKernel, Kernel.edit_task_table, if_pos ⟨rfl, low, live⟩]
    cases call with
    | _ => exact live
  have head : ((blockedKernel k call).blockCurrent (call.saved frame)).ready.head? ≠ some k.currentTid := by
    rw [Kernel.blockCurrent, Kernel.edit_task_ready, blockedKernel, Kernel.edit_task_ready]
    exact fun first => absent (List.mem_of_head? first)
  rw [Kernel.blockAndSwitch, if_neg (by rwa [current]), Kernel.switch_still_blocked _ _ _ low]
  refine ⟨?_, head⟩
  rw [Kernel.blockCurrent, Kernel.edit_task_table, current, if_pos ⟨rfl, low, marked⟩]

namespace Machine

section
variable (spaces : AddressSpaces) (address : Static → UInt64) (m : Machine) (pend : Nat → Option Pending)

theorem sync_ticks (t : Trap) (sync : t.kind = .synchronous) : (m.handled spaces .lowerAArch64 t).kernel.ticks = m.kernel.ticks := by
  cases call : isSvc t with
  | true =>
      rw [m.handled_svc spaces t call]
      exact handled_ticks spaces m.kernel _ _ (svc_handled spaces m.kernel _ _)
  | false =>
      rw [m.handled_fault spaces t sync call]
      exact kill_ticks spaces m.kernel _ _

-- A trap of the running task's own ends the sleep of no other, unless it is a
-- call that rouses it.
theorem sync_still_blocked (coherent : Coherent m.kernel (some m.kernel.currentTid)) (t : Trap) (sync : t.kind = .synchronous)
    (tid : Nat) (other : tid ≠ m.kernel.currentTid) (slept : (m.kernel.table tid).state = .blocked) :
    ((m.handled spaces .lowerAArch64 t).kernel.table tid).state = .blocked ↔
      ¬ (isSvc t = true ∧ Rouses spaces m.kernel (m.memAt t) (t.frame m.cpu.spEl1) tid) := by
  have inside := coherent.confined tid (by rw [slept]; exact fun no => (by cases no))
  have user := coherent.current_slot
  have absent : tid ∉ m.kernel.ready := fun member => by
    rw [(coherent.lists.mem_iff tid).mp member] at slept
    cases slept
  cases call : isSvc t with
  | true =>
      rw [m.handled_svc spaces t call, svc_still_blocked spaces m.kernel _ _ tid inside other absent (Nat.ne_of_gt user.1)]
      simp only [slept, true_and]
  | false =>
      have head : m.kernel.ready.head? ≠ some tid := fun first => absent (List.mem_of_head? first)
      rw [m.handled_fault spaces t sync call, kill_still_blocked spaces m.kernel _ _ tid inside.2 other user]
      exact iff_of_true ⟨slept, head⟩ fun both => by cases both.1

theorem slumbers_sync (coherent : Coherent m.kernel (some m.kernel.currentTid)) (sleepers : Sleepers m.kernel pend)
    (t : Trap) (serves : m.serves t = true) (sync : t.kind = .synchronous) (room : m.kernel.ticks.toNat < 2 ^ 64 - 1)
    (slumbers : Slumbers m.kernel pend) (after : Machine) :
    Slumbers (m.handled spaces .lowerAArch64 t).kernel (pends spaces m (.trap t) after pend) ↔
      ¬ m.WakesEarly spaces pend (.trap t) := by
  rw [pends_sync spaces m pend t after serves sync]
  constructor
  · rintro exact_ ⟨_, call, tid, p, n, waits, sleeps, early, rouses⟩
    have slept := (slumbers tid p n waits sleeps).mpr early
    have other : tid ≠ m.kernel.currentTid := by
      rintro rfl
      exact sleepers.awake p waits slept
    have still := (exact_ tid p n (by rwa [Function.update_of_ne other]) sleeps).mpr (by rwa [sync_ticks spaces m t sync])
    exact (sync_still_blocked spaces m coherent t sync tid other slept).mp still ⟨call, rouses⟩
  · intro spared tid p n waits sleeps
    rw [sync_ticks spaces m t sync]
    by_cases own : tid = m.kernel.currentTid
    · rw [own, Function.update_self] at waits
      split_ifs at waits with call
      obtain ⟨blocks, finds, _, since⟩ := falls_asleep m.kernel _ _ spaces p waits
      have user := coherent.current_slot
      have runs := (coherent.runs m.kernel.currentTid).mpr rfl
      have absent : m.kernel.currentTid ∉ m.kernel.ready := fun member => by
        rw [(coherent.lists.mem_iff _).mp member] at runs
        cases runs
      have some_ : n ≠ 0 := by
        have asks := (blocking_asks spaces m.kernel _ _ _ blocks).1
        rw [sleeps] at asks
        exact asks.2.2
      rw [own, m.handled_svc spaces t call, handled_blocks _ _ _ _ _ blocks, blockFor, if_pos finds, since]
      refine iff_of_true ?_ (deadline_ahead _ n some_ room)
      exact block_sleeps m.kernel _ _ user.2 (by rw [runs]; exact fun no => (by cases no)) absent finds
    · rw [Function.update_of_ne own] at waits
      have before := slumbers tid p n waits sleeps
      by_cases slept : (m.kernel.table tid).state = .blocked
      · rw [sync_still_blocked spaces m coherent t sync tid own slept]
        refine iff_of_true (fun rouses => ?_) (before.mp slept)
        exact spared ⟨serves, rouses.1, tid, p, n, waits, sleeps, before.mp slept, rouses.2⟩
      · have left := handled_leaves spaces m (.trap t) _ t rfl
        exact iff_of_false (fun still => slept (left.asleep tid own still).1) fun early => slept (before.mpr early)

-- Nobody blocks in a sleep of no ticks.
def Naps (pend : Nat → Option Pending) : Prop := ∀ tid p n, pend tid = some p → p.call = .sleep n → n ≠ 0

theorem naps_step (naps : Naps pend) (event : Event) (after : Machine) : Naps (pends spaces m event after pend) := by
  by_cases own : ∃ t, event = .trap t ∧ m.serves t = true ∧ t.kind = .synchronous
  · obtain ⟨t, rfl, serves, sync⟩ := own
    rw [pends_sync spaces m pend t after serves sync]
    intro tid p n waits sleeps
    by_cases here : tid = m.kernel.currentTid
    · rw [here, Function.update_self] at waits
      split_ifs at waits
      have asks := (blocking_asks spaces m.kernel _ _ _ (falls_asleep m.kernel _ _ spaces p waits).1).1
      rw [sleeps] at asks
      exact asks.2.2
    · rw [Function.update_of_ne here] at waits
      exact naps tid p n waits sleeps
  · rw [pends_other spaces m pend event after fun t same both => own ⟨t, same, both⟩]
    exact naps

theorem Scheduled.lists {m : Machine} (scheduled : m.Scheduled) :
    (Listing m.kernel.ready fun tid => (m.kernel.table tid).state = .ready) ∧
      ∀ tid, (m.kernel.table tid).state ≠ .exited → 0 < tid ∧ tid < maxTasks := by
  by_cases monitor : m.mode = .monitor
  · exact ⟨(scheduled.idle monitor).lists, (scheduled.idle monitor).confined⟩
  · exact ⟨(scheduled.busy monitor).lists, (scheduled.busy monitor).confined⟩

theorem slumbers_step (scheduled : m.Scheduled) (sleepers : Sleepers m.kernel pend) (naps : Naps pend)
    (room : m.kernel.ticks.toNat < 2 ^ 64 - 1) (slumbers : Slumbers m.kernel pend) (event : Event) :
    Slumbers (m.next spaces address event).kernel (pends spaces m event (m.next spaces address event) pend) ↔
      ¬ m.WakesEarly spaces pend event := by
  obtain ⟨lists, confined⟩ := scheduled.lists
  have step := kernel_step spaces address m event
  generalize m.next spaces address event = after at step
  cases step with
  | still unserved kernel =>
      have idle (t : Trap) (same : event = .trap t) : ¬ m.serves t = true := m.not_serves t (same ▸ unserved.imp_right And.left)
      rw [pends_other spaces m pend event after fun t same both => idle t same both.1, kernel]
      refine iff_of_true slumbers fun early => ?_
      cases event with
      | trap t => exact idle t rfl early.1
      | _ => exact early
  | calm _ quiet fired =>
      rw [pends_other spaces m pend event _ (fun t same => by rw [same] at quiet; cases quiet), fired]
      refine iff_of_true (slumbers_calm spaces address m pend event quiet lists slumbers) fun early => ?_
      cases event with
      | trap t => cases quiet
      | _ => exact early
  | handled enabled source t taken down stack kernel =>
      rw [kernel]
      change Slumbers (m.handled spaces source t).kernel _ ↔ _
      rcases handled_pends spaces m pend event source t taken enabled down after with ⟨rfl, rfl, serves, sync⟩ | ⟨async, still⟩
      · have el0 : m.mode = .el0 := by
          simp only [Machine.enabled, Bool.and_eq_true, decide_eq_true_eq] at enabled
          exact enabled.1
        have coherent := scheduled.busy (by rw [el0]; exact fun no => (by cases no))
        exact slumbers_sync spaces m pend coherent sleepers t serves sync room slumbers after
      · rw [still]
        refine iff_of_true ?_ fun early => ?_
        · rcases handled_async spaces m event source t taken async with same | same
          · rw [same]
            exact slumbers
          · rw [same]
            exact slumbers_tick m.kernel _ _ pend lists sleepers confined naps (by omega) slumbers
        · cases event with
          | trap u =>
              cases taken
              have call := early.2.1
              simp only [isSvc, decide_eq_true_eq] at call
              exact absurd call.1 (async.resolve_left (by decide))
          | _ => exact early

theorem next_ticks_le (event : Event) : (m.next spaces address event).kernel.ticks.toNat ≤ m.kernel.ticks.toNat + 1 := by
  rw [next_ticks]
  split_ifs
  · rw [UInt64.toNat_add]
    exact Nat.mod_le _ _
  · exact Nat.le_succ _

theorem clock_runs_on (events : List Event) (short : m.kernel.ticks.toNat + events.length < 2 ^ 64 - 1) :
    Run.Along (next spaces address) (fun m _ => m.kernel.ticks.toNat < 2 ^ 64 - 1) m events := by
  induction events generalizing m with
  | nil => trivial
  | cons event rest ih =>
      rw [List.length_cons] at short
      have once := next_ticks_le spaces address m event
      refine ⟨?_, ih _ ?_⟩
      · change m.kernel.ticks.toNat < 2 ^ 64 - 1
        omega
      · omega

end

-- In a session every sleep lasts until its deadline and no longer, exactly if
-- no call rouses a sleeper before it.
theorem sleep_exact (spaces : AddressSpaces) (address : Static → UInt64) (cpu : Cpu) (events : List Event)
    (session : Run.Along (next spaces address) (fun m event => event.InSession ∧ m.BlockFinds spaces event)
      (boot spaces cpu) events)
    (short : events.length < 2 ^ 64 - 1) :
    Run.Always (Run.recorded (next spaces address) (pends spaces)) (fun state => Punctual state.1.kernel state.2)
        (boot spaces cpu, fun _ => none) events ↔
      Run.Along (Run.recorded (next spaces address) (pends spaces)) (fun state event => ¬ state.1.WakesEarly spaces state.2 event)
        (boot spaces cpu, fun _ => none) events := by
  have clock : (boot spaces cpu).kernel.ticks.toNat + events.length < 2 ^ 64 - 1 := by
    rw [show (boot spaces cpu).kernel.ticks.toNat = 0 from rfl, Nat.zero_add]
    exact short
  have admitted := (Run.along_and (next spaces address) _ _ (boot spaces cpu) events).mpr
    ⟨session, clock_runs_on spaces address (boot spaces cpu) events clock⟩
  refine Run.always_iff_along _
    (fun state event => (event.InSession ∧ state.1.BlockFinds spaces event) ∧ state.1.kernel.ticks.toNat < 2 ^ 64 - 1) _
    (fun state => (state.1.Scheduled ∧ state.1.Grounded) ∧ Sleepers state.1.kernel state.2 ∧ Naps state.2) _
    ?_ ?_ _ events ?_ (fun _ _ _ no => (by cases no)) ?_
  · rintro ⟨m, pend⟩ event ⟨⟨scheduled, grounded⟩, sleepers, naps⟩ ⟨⟨inside, finds⟩, _⟩ _ _
    exact ⟨⟨scheduled_step spaces address m event scheduled inside finds, grounded_step spaces address m grounded event⟩,
      sleepers_step spaces address m pend grounded sleepers event, naps_step spaces m pend naps event (m.next spaces address event)⟩
  · rintro ⟨m, pend⟩ event ⟨⟨scheduled, grounded⟩, sleepers, naps⟩ ⟨⟨inside, finds⟩, room⟩ punctual
    have slumbers := (punctual_iff m.kernel pend scheduled.lists.1 sleepers.live).mp punctual
    have later := (scheduled_step spaces address m event scheduled inside finds).lists.1
    have still := sleepers_step spaces address m pend grounded sleepers event
    exact (punctual_iff _ _ later still.live).trans
      (slumbers_step spaces address m pend scheduled sleepers naps room slumbers event)
  · exact ⟨⟨boot_scheduled spaces cpu, boot_grounded spaces cpu⟩, boot_sleepers spaces cpu, fun _ _ _ no => (by cases no)⟩
  · exact Run.along_recorded (next spaces address) (pends spaces) _ (boot spaces cpu, fun _ => none) events admitted

-- Task 1 sleeps for two ticks, and task 2 spins.
def sleepsTwoTicks : List Event :=
  [ .spawnAt 1 one_root, .spawnAt 2 two_root, .arm, .drop false, .enter fun _ => 0,
    .trap (Trap.svc (registers sysSleep [2]) userCodeVa),
    .trap (Trap.tick (fun _ => 0) userCodeVa),
    .trap (Trap.tick (fun _ => 0) userCodeVa) ]

theorem sleep_exact_two_ticks :
    (Run.exec (next flat fun _ => 0) (boot flat coldCpu) sleepsTwoTicks).kernel.currentTid = 1 ∧
      (Run.Always (Run.recorded (next flat fun _ => 0) (pends flat)) (fun state => Punctual state.1.kernel state.2)
          (boot flat coldCpu, fun _ => none) sleepsTwoTicks ↔
        Run.Along (Run.recorded (next flat fun _ => 0) (pends flat))
          (fun state event => ¬ state.1.WakesEarly flat state.2 event) (boot flat coldCpu, fun _ => none) sleepsTwoTicks) :=
  ⟨by rw [next_direct]; decide +kernel, sleep_exact flat (fun _ => 0) coldCpu sleepsTwoTicks (by decide +kernel) (by decide)⟩

-- A message for task 1 has it Ready again after no tick at all.
example :
    let m := Run.exec (nextDirect flat fun _ => 0) (boot flat coldCpu)
      (sleepsTwoTicks.take 6 ++ [.trap (Trap.svc (registers sysSend [1, 0x200000, 4]) userCodeVa)])
    (m.kernel.table 1).state = .ready ∧ (m.kernel.table 1).wakeTick = 2 ∧ m.kernel.ticks = 0 := by decide +kernel

end Machine

end Opal
