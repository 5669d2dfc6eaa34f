import Opal.Coherence
import Opal.Ending

set_option autoImplicit false

namespace Opal

-- The part of a task that only its own syscalls and its own switches out
-- write: its context, its address space, its stack and its exit code.
def Task.lasting (t : Task) : TrapFrame × UInt64 × UInt64 × Int64 := (t.saved, t.ttbr0Pa, t.kstackTop, t.exitCode)

-- What a task that sleeps is waiting for.
def Task.marks (t : Task) : Nat × UInt64 × Nat := (t.blockedSendDst, t.wakeTick, t.waitingOn)

def Outcome.kernel : Outcome → Kernel
  | .resumed k _ _ => k
  | .toMonitor k => k
  | .parked _ k => k

namespace Kernel

-- No task has ended.
def Spares (k k' : Kernel) : Prop := ∀ tid, (k.table tid).state ≠ .exited → (k'.table tid).state ≠ .exited

namespace Spares

variable {a b c : Kernel}

theorem refl (k : Kernel) : Spares k k := fun _ live => live

theorem trans (first : Spares a b) (second : Spares b c) : Spares a c := fun tid live => second tid (first tid live)

theorem of_table (same : b.table = a.table) : Spares a b := fun tid live => by rwa [same]

section
variable (k : Kernel)

theorem edit (target : Nat) (change : Task → Task) (keeps : ∀ t, t.state ≠ .exited → (change t).state ≠ .exited) :
    Spares k (k.editTask target change) := fun tid live => by
  rw [edit_task_table]
  split_ifs
  · exact keeps _ live
  · exact live

theorem sweep (look : Task → Task × Bool) (keeps : ∀ t, t.state ≠ .exited → (look t).1.state ≠ .exited) :
    Spares k (k.sweep look) := fun tid live => by
  rw [sweep_table]
  split_ifs
  · exact keeps _ live
  · exact live

theorem wakes_sender (recvTid : Nat) : Spares k (k.wakeBlockedSenders recvTid) := by
  refine sweep k _ fun t live => ?_
  unfold wakesSender
  split_ifs
  · exact fun no => (by cases no)
  · exact live

theorem wakes_waiter (exitingTid : Nat) : Spares k (k.wakeWaiters exitingTid) := by
  refine sweep k _ fun t live => ?_
  unfold wakesWaiter
  split_ifs
  · exact fun no => (by cases no)
  · exact live

theorem wakes_sleeper : Spares k k.wakeSleepers := by
  refine sweep k _ fun t live => ?_
  unfold wakesSleeper
  split_ifs
  · exact live
  · exact live
  · exact live
  · exact fun no => (by cases no)

theorem switch (frame : TrapFrame) : Spares k (k.switchToNext frame).2.1 := by
  rcases switch_cases k frame with ⟨_, same⟩ | ⟨_, _, _, _, same⟩ | ⟨next, _, t, _, _, same⟩
  · rw [same]
    exact refl k
  · rw [same]
    exact of_table rfl
  · rw [same]
    intro tid live
    by_cases here : tid = next
    · subst here
      simp [dispatch, popped, setTask]
    · simp [dispatch, popped, setTask, here, live]

theorem save (frame : TrapFrame) : Spares k (k.saveCurrent frame) := fun tid live => by
  rw [save_table]
  split_ifs
  · exact fun no => (by cases no)
  · exact live
  · exact live

theorem deposit (dst : Nat) (data : List UInt8) : Spares k (k.deposit dst data) := fun tid live => by
  rw [deposit_table]
  by_cases here : tid = dst
  · subst here
    rw [if_pos rfl]
    dsimp only
    split_ifs
    · exact fun no => (by cases no)
    · exact live
  · rwa [if_neg here]

theorem drain (cur : Nat) : Spares k (k.drain cur) := fun tid live => by
  have emptied : ∀ t : Task, t.state ≠ .exited → (wakesSender cur t).1.state ≠ .exited := fun t live => by
    unfold wakesSender
    split_ifs
    · exact fun no => (by cases no)
    · exact live
  rw [drain_table]
  dsimp only
  split_ifs
  · exact emptied _ live
  · exact emptied _ live
  · exact live
  · exact live

end

end Spares

-- Every task but one keeps its lasting part, and its marks while it sleeps. No
-- task changes its address space or its stack, and an ended task stays ended
-- with its code.
structure Leaves (cur : Nat) (k k' : Kernel) : Prop where
  alive : ∀ tid, tid ≠ cur → (k.table tid).state ≠ .exited → (k'.table tid).state ≠ .exited
  others : ∀ tid, tid ≠ cur → (k'.table tid).lasting = (k.table tid).lasting
  space : ∀ tid, (k'.table tid).ttbr0Pa = (k.table tid).ttbr0Pa
  stack : ∀ tid, (k'.table tid).kstackTop = (k.table tid).kstackTop
  ended : ∀ tid, (k.table tid).state = .exited →
    (k'.table tid).state = .exited ∧ (k'.table tid).exitCode = (k.table tid).exitCode
  asleep : ∀ tid, tid ≠ cur → (k'.table tid).state = .blocked →
    (k.table tid).state = .blocked ∧ (k'.table tid).marks = (k.table tid).marks

namespace Leaves

variable {cur : Nat} {a b c : Kernel}

theorem refl (k : Kernel) : Leaves cur k k :=
  ⟨fun _ _ live => live, fun _ _ => rfl, fun _ => rfl, fun _ => rfl, fun _ gone => ⟨gone, rfl⟩,
    fun _ _ sleeps => ⟨sleeps, rfl⟩⟩

theorem trans (first : Leaves cur a b) (second : Leaves cur b c) : Leaves cur a c where
  alive := fun tid other live => second.alive tid other (first.alive tid other live)
  others := fun tid other => (second.others tid other).trans (first.others tid other)
  space := fun tid => (second.space tid).trans (first.space tid)
  stack := fun tid => (second.stack tid).trans (first.stack tid)
  ended := fun tid gone => by
    obtain ⟨still, code⟩ := first.ended tid gone
    obtain ⟨gone', code'⟩ := second.ended tid still
    exact ⟨gone', code'.trans code⟩
  asleep := fun tid other sleeps => by
    obtain ⟨slept, marks⟩ := second.asleep tid other sleeps
    obtain ⟨slept', marks'⟩ := first.asleep tid other slept
    exact ⟨slept', marks.trans marks'⟩

theorem of_table (same : b.table = a.table) : Leaves cur a b := by
  refine ⟨fun tid _ => Spares.of_table same tid, fun tid _ => ?_, fun tid => ?_, fun tid => ?_, fun tid gone => ?_,
    fun tid _ sleeps => ?_⟩
  · rw [same]
  · rw [same]
  · rw [same]
  · rw [same]
    exact ⟨gone, rfl⟩
  · rw [same] at sleeps ⊢
    exact ⟨sleeps, rfl⟩

section
variable (k : Kernel)

theorem edit (change : Task → Task)
    (keeps : ∀ t, (change t).ttbr0Pa = t.ttbr0Pa ∧ (change t).kstackTop = t.kstackTop) :
    Leaves cur k (k.editTask cur change) := by
  refine ⟨fun tid other live => ?_, fun tid other => ?_, fun tid => ?_, fun tid => ?_, fun tid gone => ?_,
    fun tid other sleeps => ?_⟩
  · rwa [edit_task_table, if_neg (fun all => other all.1)]
  · rw [edit_task_table, if_neg (fun all => other all.1)]
  · rw [edit_task_table]
    split_ifs
    · exact (keeps _).1
    · rfl
  · rw [edit_task_table]
    split_ifs
    · exact (keeps _).2
    · rfl
  · rw [edit_task_table, if_neg (fun all => all.2.2 (all.1 ▸ gone))]
    exact ⟨gone, rfl⟩
  · rw [edit_task_table, if_neg (fun all => other all.1)] at sleeps ⊢
    exact ⟨sleeps, rfl⟩

theorem sweep (look : Task → Task × Bool) (keeps : ∀ t, (look t).1.lasting = t.lasting)
    (dead : ∀ t, t.state = .exited → (look t).1.state = .exited) (spares : Spares k (k.sweep look))
    (asleep : ∀ t, (look t).1.state = .blocked → t.state = .blocked ∧ (look t).1.marks = t.marks) :
    Leaves cur k (k.sweep look) := by
  have lasting : ∀ tid, ((k.sweep look).table tid).lasting = (k.table tid).lasting := fun tid => by
    rw [sweep_table]
    split_ifs
    · exact keeps _
    · rfl
  refine ⟨fun tid _ => spares tid, fun tid _ => lasting tid, fun tid => congrArg (·.2.1) (lasting tid),
    fun tid => congrArg (·.2.2.1) (lasting tid),
    fun tid gone => ?_, fun tid _ sleeps => ?_⟩
  · refine ⟨?_, congrArg (·.2.2.2) (lasting tid)⟩
    rw [sweep_table]
    split_ifs
    · exact dead _ gone
    · exact gone
  · rw [sweep_table] at sleeps ⊢
    split_ifs at sleeps ⊢
    · exact asleep _ sleeps
    · exact ⟨sleeps, rfl⟩

theorem wakes_sender (recvTid : Nat) : Leaves cur k (k.wakeBlockedSenders recvTid) := by
  refine sweep k _ (fun t => ?_) (fun t gone => ?_) (Spares.wakes_sender k recvTid) (fun t sleeps => ?_)
  · unfold wakesSender
    split_ifs
    · rfl
    · rfl
  · rw [wakesSender, if_neg (fun both => by rw [gone] at both; cases both.1)]
    exact gone
  · unfold wakesSender at sleeps ⊢
    split_ifs at sleeps ⊢
    exact ⟨sleeps, rfl⟩

theorem wakes_waiter (exitingTid : Nat) : Leaves cur k (k.wakeWaiters exitingTid) := by
  refine sweep k _ (fun t => ?_) (fun t gone => ?_) (Spares.wakes_waiter k exitingTid) (fun t sleeps => ?_)
  · unfold wakesWaiter
    split_ifs
    · rfl
    · rfl
  · rw [wakesWaiter, if_neg (fun both => by rw [gone] at both; cases both.1)]
    exact gone
  · unfold wakesWaiter at sleeps ⊢
    split_ifs at sleeps ⊢
    exact ⟨sleeps, rfl⟩

theorem wakes_sleeper : Leaves cur k k.wakeSleepers := by
  refine sweep k _ (fun t => ?_) (fun t gone => ?_) (Spares.wakes_sleeper k) (fun t sleeps => ?_)
  · unfold wakesSleeper
    split_ifs
    · rfl
    · rfl
    · rfl
    · rfl
  · unfold wakesSleeper
    split_ifs with _ _ other
    · exact gone
    · exact gone
    · exact gone
    · exact absurd (by rw [gone]; decide) other
  · unfold wakesSleeper at sleeps ⊢
    split_ifs at sleeps ⊢ with _ _ other
    · exact ⟨sleeps, rfl⟩
    · exact ⟨sleeps, rfl⟩
    · exact absurd sleeps other

theorem switch (frame : TrapFrame) : Leaves cur k (k.switchToNext frame).2.1 := by
  have spares := Spares.switch k frame
  rcases switch_cases k frame with ⟨_, same⟩ | ⟨next, _, _, _, same⟩ | ⟨next, _, t, _, found, same⟩
  · rw [same]
    exact refl k
  · rw [same]
    exact of_table rfl
  · obtain ⟨_, live, rfl⟩ := (task_eq_some k next t).mp found
    rw [same] at spares ⊢
    have lasting : ∀ tid, ((k.popped.dispatch next (k.table next)).table tid).lasting = (k.table tid).lasting := by
      intro tid
      by_cases here : tid = next
      · subst here
        simp [dispatch, popped, setTask, Task.lasting]
      · simp [dispatch, popped, setTask, here]
    refine ⟨fun tid _ => spares tid, fun tid _ => lasting tid, fun tid => congrArg (·.2.1) (lasting tid),
    fun tid => congrArg (·.2.2.1) (lasting tid),
    fun tid gone => ?_, fun tid _ sleeps => ?_⟩
    · have here : tid ≠ next := fun here => live (here ▸ gone)
      simp [dispatch, popped, setTask, here, gone]
    · by_cases here : tid = next
      · subst here
        simp [dispatch, popped, setTask] at sleeps
      · have same : (k.popped.dispatch next (k.table next)).table tid = k.table tid := by
          simp [dispatch, popped, setTask, here]
        rw [same] at sleeps ⊢
        exact ⟨sleeps, rfl⟩

theorem switch_ended (frame : TrapFrame) (tid : Nat) (gone : (k.table tid).state = .exited) :
    ((k.switchToNext frame).2.1.table tid).state = .exited ∧
      ((k.switchToNext frame).2.1.table tid).exitCode = (k.table tid).exitCode := by
  have left : Leaves k.currentTid k (k.switchToNext frame).2.1 := switch k frame
  exact left.ended tid gone

theorem save (frame : TrapFrame) : Leaves k.currentTid k (k.saveCurrent frame) := by
  refine ⟨fun tid _ => Spares.save k frame tid, fun tid other => ?_, fun tid => ?_, fun tid => ?_, fun tid gone => ?_,
    fun tid other sleeps => ?_⟩
  · rw [save_table, if_neg (fun all => other all.1)]
  · rw [save_table]
    split_ifs
    · rfl
    · rfl
    · rfl
  · rw [save_table]
    split_ifs
    · rfl
    · rfl
    · rfl
  · rw [save_table, if_neg (fun all => all.2.2.2 (all.1 ▸ gone))]
    exact ⟨gone, rfl⟩
  · rw [save_table, if_neg (fun all => other all.1)] at sleeps ⊢
    exact ⟨sleeps, rfl⟩

theorem save_and_switch (frame : TrapFrame) : Leaves k.currentTid k (k.saveAndSwitch frame).2.1 :=
  (save k frame).trans (switch _ frame)

theorem block_and_switch (frame : TrapFrame) : Leaves k.currentTid k (k.blockAndSwitch frame).2.1 := by
  unfold blockAndSwitch
  split_ifs
  · exact refl k
  · have blocked : Leaves k.currentTid k (k.blockCurrent frame) := edit k _ (fun _ => ⟨rfl, rfl⟩)
    exact blocked.trans (switch _ frame)

theorem deposit (dst : Nat) (data : List UInt8) (live : (k.table dst).state ≠ .exited) :
    Leaves cur k (k.deposit dst data) := by
  have lasting : ∀ tid, ((k.deposit dst data).table tid).lasting = (k.table tid).lasting := fun tid => by
    rw [deposit_table]
    split_ifs
    · rfl
    · rfl
    · rfl
  have spares := Spares.deposit k dst data
  refine ⟨fun tid _ => spares tid, fun tid _ => lasting tid, fun tid => congrArg (·.2.1) (lasting tid),
    fun tid => congrArg (·.2.2.1) (lasting tid),
    fun tid gone => ?_, fun tid _ sleeps => ?_⟩
  · have here : tid ≠ dst := fun here => live (here ▸ gone)
    rw [deposit_table, if_neg here]
    exact ⟨gone, rfl⟩
  · rw [deposit_table] at sleeps ⊢
    by_cases here : tid = dst
    · subst here
      rw [if_pos rfl] at sleeps
      dsimp only at sleeps
      split_ifs at sleeps with was
      exact absurd sleeps was
    · rw [if_neg here] at sleeps ⊢
      exact ⟨sleeps, rfl⟩

theorem drain (tid : Nat) : Leaves cur k (k.drain tid) := by
  have emptied : Leaves cur k (k.setTask tid { k.table tid with mailboxLen := 0, mailboxFrom := 0 }) := by
    have lasting : ∀ i, ((k.setTask tid { k.table tid with mailboxLen := 0, mailboxFrom := 0 }).table i).lasting =
        (k.table i).lasting := fun i => by
      by_cases here : i = tid
      · subst here
        simp [Task.lasting]
      · simp [here]
    have shown : ∀ i, ((k.setTask tid { k.table tid with mailboxLen := 0, mailboxFrom := 0 }).table i).state =
        (k.table i).state ∧ ((k.setTask tid { k.table tid with mailboxLen := 0, mailboxFrom := 0 }).table i).marks =
        (k.table i).marks := fun i => by
      by_cases here : i = tid
      · subst here
        simp [Task.marks]
      · simp [here]
    refine ⟨fun i _ live => ?_, fun i _ => lasting i, fun i => congrArg (·.2.1) (lasting i),
      fun i => congrArg (·.2.2.1) (lasting i), fun i gone => ?_,
      fun i _ sleeps => ?_⟩
    · rwa [(shown i).1]
    · exact ⟨(shown i).1.trans gone, congrArg (·.2.2.2) (lasting i)⟩
    · exact ⟨(shown i).1.symm.trans sleeps, (shown i).2⟩
  exact emptied.trans (wakes_sender _ tid)

end

end Leaves

end Kernel

section
variable (spaces : AddressSpaces) (k : Kernel) (mem : UserMem) (frame : TrapFrame)

open Kernel (Leaves)

theorem tick_leaves : Leaves k.currentTid k (serviceTick k mem frame).kernel := by
  have counted : Leaves k.currentTid k (onTick k) := Leaves.of_table rfl
  have woken := counted.trans (Leaves.wakes_sleeper (onTick k))
  have current : (onTick k).wakeSleepers.currentTid = k.currentTid := Kernel.sweep_current _ _
  have switched := Leaves.save_and_switch (onTick k).wakeSleepers frame
  rw [current] at switched
  unfold serviceTick
  dsimp only
  split_ifs
  · exact woken.trans (switched.trans (Leaves.of_table rfl))
  · exact woken.trans switched
  · exact woken

theorem tick_spares : Kernel.Spares k (serviceTick k mem frame).kernel := by
  have woken : Kernel.Spares k (onTick k).wakeSleepers := Kernel.Spares.wakes_sleeper (onTick k)
  have saved := woken.trans (Kernel.Spares.save (onTick k).wakeSleepers frame)
  have switched := saved.trans (Kernel.Spares.switch _ frame)
  unfold serviceTick
  dsimp only
  split_ifs
  · exact switched
  · exact switched
  · exact woken

theorem yield_spares : Kernel.Spares k (svcYield k mem frame).kernel := by
  have switched := (Kernel.Spares.save k frame).trans (Kernel.Spares.switch _ frame)
  unfold svcYield
  dsimp only
  by_cases user : k.currentTid ≠ 0
  · rw [if_pos user]
    split_ifs
    · exact switched
    · exact switched
  · rw [if_neg user, if_neg (fun no => (by cases no))]
    exact Kernel.Spares.refl k

theorem block_spares (call : Call) : Kernel.Spares k (blockFor k mem frame call).kernel := by
  have marked : Kernel.Spares k (blockedKernel k call) := by
    refine Kernel.Spares.edit k _ _ (fun t live => ?_)
    cases call with
    | _ => exact live
  have blocked : Kernel.Spares (blockedKernel k call) ((blockedKernel k call).blockAndSwitch (call.saved frame)).2.1 := by
    unfold Kernel.blockAndSwitch
    split_ifs
    · exact Kernel.Spares.refl _
    · have asleep : Kernel.Spares (blockedKernel k call) ((blockedKernel k call).blockCurrent (call.saved frame)) :=
        Kernel.Spares.edit _ _ _ (fun _ _ no => (by cases no))
      exact asleep.trans (Kernel.Spares.switch _ _)
  unfold blockFor
  dsimp only
  split_ifs
  · exact marked.trans blocked
  · refine marked.trans (blocked.trans (Kernel.Spares.edit _ _ _ (fun t live => ?_)))
    cases call with
    | _ => exact live

theorem yield_leaves : Leaves k.currentTid k (svcYield k mem frame).kernel := by
  unfold svcYield
  dsimp only
  by_cases user : k.currentTid ≠ 0
  · rw [if_pos user]
    split_ifs
    · exact Leaves.save_and_switch k frame
    · exact Leaves.save_and_switch k frame
  · rw [if_neg user, if_neg (fun no => (by cases no))]
    exact Leaves.refl k

theorem block_leaves (call : Call) : Leaves k.currentTid k (blockFor k mem frame call).kernel := by
  have marked : Leaves k.currentTid k (blockedKernel k call) := by
    refine Leaves.edit k _ (fun t => ?_)
    cases call with
    | _ => exact ⟨rfl, rfl⟩
  have current : (blockedKernel k call).currentTid = k.currentTid := Kernel.edit_task_current k _ _
  have blocked := Leaves.block_and_switch (blockedKernel k call) (call.saved frame)
  rw [current] at blocked
  unfold blockFor
  dsimp only
  split_ifs
  · exact marked.trans blocked
  · refine marked.trans (blocked.trans (Leaves.edit _ _ (fun t => ?_)))
    cases call with
    | _ => exact ⟨rfl, rfl⟩

theorem exit_leaves : Leaves k.currentTid k (svcExit spaces k mem frame).kernel := by
  by_cases nobody : k.currentTid = 0
  · rw [exit_kernel spaces k mem frame nobody]
    exact Leaves.of_table (exit_return_table spaces k)
  · have marked : Leaves k.currentTid k (k.editTask k.currentTid (Kernel.exitWith (frame.x 0).toInt64)) :=
      Leaves.edit k _ (fun _ => ⟨rfl, rfl⟩)
    have ended : Leaves k.currentTid k (k.afterExit (frame.x 0).toInt64) := marked.trans (Leaves.wakes_waiter _ _)
    have switched := ended.trans (Leaves.switch _ frame)
    rw [exit_eq spaces k mem frame nobody]
    dsimp only
    split_ifs
    · exact switched
    · exact switched.trans (Leaves.of_table (exit_return_table spaces _))

theorem kill_leaves : Leaves k.currentTid k (killTaskFromEl0 spaces k mem frame).kernel := by
  by_cases user : 0 < k.currentTid ∧ k.currentTid < maxTasks
  · have ended : Leaves k.currentTid k k.afterKill := Leaves.edit k _ (fun _ => ⟨rfl, rfl⟩)
    have switched := ended.trans (Leaves.switch _ frame)
    rw [kill_eq spaces k mem frame user]
    dsimp only
    split_ifs
    · exact switched
    · exact switched.trans (Leaves.of_table (kill_return_table spaces _))
  · rw [kill_kernel spaces k mem frame user]
    exact Leaves.of_table (kill_return_table spaces k)

theorem exit_kernel_table (user : k.currentTid ≠ 0) :
    (svcExit spaces k mem frame).kernel.table = ((k.afterExit (frame.x 0).toInt64).switchToNext frame).2.1.table := by
  rw [exit_eq spaces k mem frame user]
  dsimp only
  split_ifs
  · rfl
  · exact exit_return_table spaces _

theorem kill_kernel_table (user : 0 < k.currentTid ∧ k.currentTid < maxTasks) :
    (killTaskFromEl0 spaces k mem frame).kernel.table = (k.afterKill.switchToNext frame).2.1.table := by
  rw [kill_eq spaces k mem frame user]
  dsimp only
  split_ifs
  · rfl
  · exact kill_return_table spaces _

theorem exit_still_blocked (tid : Nat) (inside : 0 < tid ∧ tid < maxTasks) (other : tid ≠ k.currentTid)
    (user : k.currentTid ≠ 0) :
    ((svcExit spaces k mem frame).kernel.table tid).state = .blocked ↔
      (k.table tid).state = .blocked ∧ (k.table tid).waitingOn ≠ k.currentTid ∧ k.ready.head? ≠ some tid := by
  have switched := Kernel.switch_still_blocked (k.afterExit (frame.x 0).toInt64) frame tid inside.2
  rw [exit_kernel_table spaces k mem frame user, switched, Kernel.after_exit_table, Kernel.after_exit_ready, Kernel.exit_edit_other k _ tid other]
  by_cases woken : tid ∈ k.waitersOn k.currentTid
  · rw [if_pos woken]
    simp only [Kernel.waitersOn, List.mem_filter, decide_eq_true_eq] at woken
    exact ⟨fun both => (by cases both.1), fun all => absurd woken.2.2.2 all.2.1⟩
  · have head := Kernel.head_appended k.ready (k.waitersOn k.currentTid) tid woken
    rw [if_neg woken]
    refine ⟨fun both => ⟨both.1, fun waits => woken ?_, fun first => both.2 (head.mpr first)⟩,
      fun all => ⟨all.1, fun first => all.2.2 (head.mp first)⟩⟩
    simp only [Kernel.waitersOn, List.mem_filter, Kernel.mem_slots, decide_eq_true_eq]
    exact ⟨inside, other, both.1, waits⟩

-- A fault wakes nobody: only the head of the queue goes on.
theorem kill_still_blocked (tid : Nat) (low : tid < maxTasks) (other : tid ≠ k.currentTid)
    (user : 0 < k.currentTid ∧ k.currentTid < maxTasks) :
    ((killTaskFromEl0 spaces k mem frame).kernel.table tid).state = .blocked ↔
      (k.table tid).state = .blocked ∧ k.ready.head? ≠ some tid := by
  have switched := Kernel.switch_still_blocked k.afterKill frame tid low
  have slept : k.afterKill.table tid = k.table tid := by
    rw [Kernel.afterKill, Kernel.edit_task_table, if_neg (fun all => other all.1)]
  have waiting : k.afterKill.ready = k.ready := Kernel.edit_task_ready k _ _
  rw [kill_kernel_table spaces k mem frame user, switched, slept, waiting]

theorem exit_ends (user : 0 < k.currentTid ∧ k.currentTid < maxTasks) (live : (k.table k.currentTid).state ≠ .exited) :
    ((svcExit spaces k mem frame).kernel.table k.currentTid).state = .exited ∧
      ((svcExit spaces k mem frame).kernel.table k.currentTid).exitCode = (frame.x 0).toInt64 := by
  have apart : k.currentTid ∉ k.waitersOn k.currentTid := fun woken => by
    simp only [Kernel.waitersOn, List.mem_filter, decide_eq_true_eq] at woken
    exact woken.2.1 rfl
  have own : (k.afterExit (frame.x 0).toInt64).table k.currentTid =
      Kernel.exitWith (frame.x 0).toInt64 (k.table k.currentTid) := by
    rw [Kernel.after_exit_table, if_neg apart, Kernel.edit_task_table, if_pos ⟨rfl, user.2, live⟩]
  have switched := Leaves.switch_ended (k.afterExit (frame.x 0).toInt64) frame k.currentTid (by rw [own]; rfl)
  rw [own] at switched
  rw [exit_kernel_table spaces k mem frame (Nat.ne_of_gt user.1)]
  exact switched

theorem kill_ends (user : 0 < k.currentTid ∧ k.currentTid < maxTasks) (live : (k.table k.currentTid).state ≠ .exited) :
    ((killTaskFromEl0 spaces k mem frame).kernel.table k.currentTid).state = .exited ∧
      ((killTaskFromEl0 spaces k mem frame).kernel.table k.currentTid).exitCode = -1 := by
  have own : k.afterKill.table k.currentTid = Kernel.killed (k.table k.currentTid) := by
    rw [Kernel.afterKill, Kernel.edit_task_table, if_pos ⟨rfl, user.2, live⟩]
  have switched := Leaves.switch_ended k.afterKill frame k.currentTid (by rw [own]; rfl)
  rw [own] at switched
  rw [kill_kernel_table spaces k mem frame user]
  exact switched

theorem handled_leaves {outcome : Outcome} (handled : Handled spaces k mem frame outcome) :
    Leaves k.currentTid k outcome.kernel := by
  cases handled with
  | answered _ _ _ => exact Leaves.refl k
  | readFault _ _ _ => exact Leaves.refl k
  | writeFault _ _ _ _ after took _ =>
      obtain ⟨_, _, _, _, rfl⟩ := (Kernel.ipc_recv_ok _ _ _ _ _).mp took
      exact Leaves.drain k _
  | sent _ _ _ _ _ accepted _ =>
      obtain ⟨_, live, _, rfl⟩ := (Kernel.ipc_send_ok _ _ _ _).mp accepted
      exact Leaves.deposit k _ _ live
  | received _ _ _ _ _ took _ _ =>
      obtain ⟨_, _, _, _, rfl⟩ := (Kernel.ipc_recv_ok _ _ _ _ _).mp took
      exact Leaves.drain k _
  | yielded _ => exact yield_leaves k mem frame
  | blocking call _ => exact block_leaves k mem frame call
  | exited _ => exact exit_leaves spaces k mem frame

theorem handled_spares {outcome : Outcome} (handled : Handled spaces k mem frame outcome)
    (stays : ¬ (frame.x 8 = sysExit ∨ frame.x 8 = sysExitCode)) : Kernel.Spares k outcome.kernel := by
  cases handled with
  | answered _ _ _ => exact Kernel.Spares.refl k
  | readFault _ _ _ => exact Kernel.Spares.refl k
  | writeFault _ _ _ _ after took _ =>
      obtain ⟨_, _, _, _, rfl⟩ := (Kernel.ipc_recv_ok _ _ _ _ _).mp took
      exact Kernel.Spares.drain k _
  | sent _ _ _ _ _ accepted _ =>
      obtain ⟨_, _, _, rfl⟩ := (Kernel.ipc_send_ok _ _ _ _).mp accepted
      exact Kernel.Spares.deposit k _ _
  | received _ _ _ _ _ took _ _ =>
      obtain ⟨_, _, _, _, rfl⟩ := (Kernel.ipc_recv_ok _ _ _ _ _).mp took
      exact Kernel.Spares.drain k _
  | yielded _ => exact yield_spares k mem frame
  | blocking call _ => exact block_spares k mem frame call
  | exited nr => exact absurd nr stays

theorem trapped_leaves {t : Trap} {outcome : Outcome} (trapped : Trapped spaces k mem frame t outcome) :
    Leaves k.currentTid k outcome.kernel := by
  cases trapped with
  | svc _ _ handled => exact handled_leaves spaces k mem frame handled
  | fault _ _ => exact kill_leaves spaces k mem frame
  | tick _ _ => exact tick_leaves k mem frame
  | ignored _ _ => exact Leaves.refl k
  | sError _ => exact Leaves.refl k

end

namespace Machine

open Kernel (Leaves)

-- Everything spawn can do.
theorem spawn_cases (k : Kernel) (args : Kernel.SpawnArgs) :
    (k.allocTask.1 = none ∧ (k.spawn args).2 = k) ∨
      ∃ fresh, k.allocTask.1 = some fresh ∧ (0 < fresh ∧ fresh < maxTasks) ∧ (k.table fresh).state = .exited ∧
        (k.spawn args).2 = (k.setTask fresh args.initial).enqueue fresh := by
  unfold Kernel.spawn Kernel.allocTask
  cases free : Kernel.slots.find? fun tid => (k.table tid).state = .exited with
  | none => exact .inl ⟨rfl, rfl⟩
  | some fresh =>
      have inside := (Kernel.mem_slots fresh).mp (List.mem_of_find?_eq_some free)
      have gone : (k.table fresh).state = .exited := by simpa using List.find?_some free
      refine .inr ⟨fresh, rfl, inside, gone, ?_⟩
      simp [Kernel.setTask]

section
variable (spaces : AddressSpaces) (address : Static → UInt64) (m : Machine)

theorem handled_leaves (event : Event) (source : Source) (t : Trap) (taken : event.exception = some (source, t)) :
    Leaves m.kernel.currentTid m.kernel (m.handled spaces source t).kernel := by
  cases event with
  | el1 fault =>
      cases taken
      unfold handled
      rcases from_el1 spaces m.kernel (m.memFor .currentSpElx t) (t.frame m.cpu.spEl1) t.kind t.device with
        ⟨_, _, same⟩ | same | same
      · rw [same]
        exact Leaves.refl _
      · rw [same]
        exact tick_leaves _ _ _
      · rw [same]
        exact Leaves.refl _
  | trap fault =>
      cases taken
      exact trapped_leaves spaces _ _ _ (trapped spaces _ _ _ t rfl)
  | _ => cases taken

theorem fire_leaves (event : Event) (quiet : event.exception = none) (old : ∀ args, event ≠ .spawn args) :
    Leaves m.kernel.currentTid m.kernel (m.fire spaces address event).kernel := by
  cases event with
  | spawn args => exact absurd rfl (old args)
  | drop unmask =>
      rcases drop_cases m unmask with ⟨_, same⟩ | ⟨_, _, _, _, same⟩ | ⟨first, _, t, waiting, found, same⟩
      · rw [fire, same]
        exact Leaves.refl _
      · rw [fire, same]
        exact Leaves.of_table rfl
      · have switched : Leaves m.kernel.currentTid m.kernel _ := Leaves.switch m.kernel .empty
        rw [Kernel.switch_found m.kernel .empty first _ t waiting found] at switched
        have table : (dropped m.kernel first t).table = (m.kernel.popped.dispatch first t).table := rfl
        rw [fire, same]
        exact switched.trans (Leaves.of_table table)
  | enter residue =>
      simp only [fire]
      split
      · exact Leaves.of_table rfl
      · exact Leaves.refl _
  | el1 t => cases quiet
  | trap t => cases quiet
  | _ => exact Leaves.of_table rfl

-- What the monitor loop and a drop do to a slot: nothing, give it to a new
-- task, or run its task.
theorem fire_task (event : Event) (quiet : event.exception = none) (tid : Nat) :
    (m.fire spaces address event).kernel.table tid = m.kernel.table tid ∨
      ((m.kernel.table tid).state = .exited ∧
        ∃ args : Kernel.SpawnArgs, (m.fire spaces address event).kernel.table tid = args.initial) ∨
      ((m.kernel.table tid).state ≠ .exited ∧
        (m.fire spaces address event).kernel.table tid = { m.kernel.table tid with state := .running }) := by
  cases event with
  | spawn args =>
      simp only [fire]
      rcases spawn_cases m.kernel args with ⟨_, same⟩ | ⟨fresh, _, _, gone, same⟩
      · rw [same]
        exact .inl rfl
      · rw [same, Kernel.enqueue_table, Kernel.set_task_table]
        by_cases here : tid = fresh
        · rw [here, Function.update_self]
          exact .inr (.inl ⟨gone, args, rfl⟩)
        · rw [Function.update_of_ne here]
          exact .inl rfl
  | drop unmask =>
      rcases drop_cases m unmask with ⟨_, same⟩ | ⟨_, _, _, _, same⟩ | ⟨first, _, t, _, found, same⟩
      · rw [fire, same]
        exact .inl rfl
      · rw [fire, same]
        exact .inl rfl
      · obtain ⟨_, live, rfl⟩ := (Kernel.task_eq_some _ _ _).mp found
        rw [fire, same]
        by_cases here : tid = first
        · subst here
          exact .inr (.inr ⟨live, by simp [dropped, Kernel.record, Kernel.setTask, Kernel.popped]⟩)
        · exact .inl (by simp [dropped, Kernel.record, Kernel.setTask, Kernel.popped, here])
  | enter residue =>
      simp only [fire]
      split
      · exact .inl rfl
      · exact .inl rfl
  | el1 t => cases quiet
  | trap t => cases quiet
  | _ => exact .inl rfl

theorem fire_current (event : Event) (quiet : event.exception = none) :
    (m.fire spaces address event).kernel.currentTid = m.kernel.currentTid ∨
      ((m.fire spaces address event).kernel.table (m.fire spaces address event).kernel.currentTid).state = .running := by
  cases event with
  | spawn args =>
      simp only [fire]
      rcases spawn_cases m.kernel args with ⟨_, same⟩ | ⟨_, _, _, _, same⟩
      · rw [same]
        exact .inl rfl
      · rw [same]
        exact .inl rfl
  | drop unmask =>
      rcases drop_cases m unmask with ⟨_, same⟩ | ⟨_, _, _, _, same⟩ | ⟨first, _, t, _, _, same⟩
      · rw [fire, same]
        exact .inl rfl
      · rw [fire, same]
        exact .inl rfl
      · rw [fire, same]
        refine .inr ?_
        change ((dropped m.kernel first t).table first).state = .running
        simp [dropped, Kernel.record, Kernel.setTask]
  | enter residue =>
      simp only [fire]
      split
      · exact .inl rfl
      · exact .inl rfl
  | el1 t => cases quiet
  | trap t => cases quiet
  | _ => exact .inl rfl

-- What one event does to the kernel: nothing, what the monitor loop or a drop
-- does, or what a handler does, up to the stack the stub takes.
inductive KernelStep (event : Event) (after : Machine) : Prop where
  | still (unserved : m.enabled event = false ∨ m.oops = true ∧ event.exception ≠ none) (kernel : after.kernel = m.kernel)
  | calm (enabled : m.enabled event = true) (quiet : event.exception = none) (fired : after = m.fire spaces address event)
  | handled (enabled : m.enabled event = true) (source : Source) (t : Trap) (taken : event.exception = some (source, t))
      (down : m.oops = false) (stack : UInt64)
      (kernel : after.kernel = { (m.handled spaces source t).kernel with pendingKstackSp := stack })

theorem kernel_step (event : Event) : KernelStep spaces address m event (m.next spaces address event) := by
  have step := stepped spaces address m event
  generalize m.next spaces address event = after at step
  cases step with
  | ignored disabled => exact .still (.inl disabled) rfl
  | calm enabled quiet => exact .calm enabled quiet rfl
  | nested _ _ _ taken raised after _ _ kernel =>
      refine .still (.inr ⟨raised, ?_⟩) kernel
      rw [taken]
      exact fun no => (by cases no)
  | resumed enabled source t taken down k _ _ outcome after resumed =>
      refine .handled enabled source t taken down 0 ?_
      rw [outcome]
      exact resumed.kernel
  | returned enabled source t taken down k outcome after returned =>
      refine .handled enabled source t taken down k.pendingKstackSp ?_
      rw [outcome]
      exact returned.kernel
  | parked enabled source t taken down _ k outcome after _ _ kernel =>
      refine .handled enabled source t taken down k.pendingKstackSp ?_
      rw [outcome]
      exact kernel

theorem served_kernel (t : Trap) (serves : m.serves t = true) :
    ∃ stack, (m.next spaces address (.trap t)).kernel =
      { (m.handled spaces .lowerAArch64 t).kernel with pendingKstackSp := stack } := by
  cases kernel_step spaces address m (.trap t) with
  | still unserved _ => exact absurd serves (m.not_serves t (unserved.imp_right And.left))
  | calm _ quiet _ => cases quiet
  | handled _ source fault taken _ stack kernel =>
      cases taken
      exact ⟨stack, kernel⟩

theorem served_resumed (t : Trap) (serves : m.serves t = true) (k : Kernel) (mem : UserMem) (frame : TrapFrame)
    (outcome : m.handled spaces .lowerAArch64 t = .resumed k mem frame) :
    Resumed m .lowerAArch64 t k mem frame (m.next spaces address (.trap t)) := by
  obtain ⟨enabled, down⟩ := (m.serves_iff t).mp serves
  rw [next_enabled spaces address m _ enabled]
  exact deliver_resumed spaces address m .lowerAArch64 (m.memAt t) t down k mem frame outcome

-- Only a spawn gives a slot to a new task.
theorem next_leaves (event : Event) (old : ∀ args, event ≠ .spawn args) :
    Leaves m.kernel.currentTid m.kernel (m.next spaces address event).kernel := by
  cases kernel_step spaces address m event with
  | still _ kernel => exact Leaves.of_table (congrArg Kernel.table kernel)
  | calm _ quiet fired =>
      rw [fired]
      exact fire_leaves spaces address m event quiet old
  | handled _ source t taken _ _ kernel =>
      rw [kernel]
      exact (handled_leaves spaces m event source t taken).trans (Leaves.of_table rfl)

end

-- Only slots 1 to 7 ever hold a task.
def Confined (m : Machine) : Prop := ∀ tid, (m.kernel.table tid).state ≠ .exited → 0 < tid ∧ tid < maxTasks

theorem confined_step (spaces : AddressSpaces) (address : Static → UInt64) (m : Machine) (event : Event)
    (confined : m.Confined) : (m.next spaces address event).Confined := by
  intro tid live
  by_cases old : ∀ args, event ≠ .spawn args
  · have left := next_leaves spaces address m event old
    exact confined tid fun gone => live (left.ended tid gone).1
  · obtain ⟨args, born⟩ : ∃ args, event = .spawn args := by
      simpa only [ne_eq, not_forall, not_not] using old
    subst born
    by_cases enabled : m.enabled (.spawn args) = true
    · rw [next_enabled spaces address m _ enabled] at live
      simp only [fire] at live
      rcases spawn_cases m.kernel args with ⟨_, same⟩ | ⟨fresh, _, inside, _, same⟩
      · rw [same] at live
        exact confined tid live
      · rw [same, Kernel.enqueue_table, Kernel.set_task_table] at live
        by_cases here : tid = fresh
        · exact here ▸ inside
        · rw [Function.update_of_ne here] at live
          exact confined tid live
    · rw [next_disabled spaces address m _ enabled] at live
      exact confined tid live

theorem confined_run (spaces : AddressSpaces) (address : Static → UInt64) (cpu : Cpu) (events : List Event) :
    (Run.exec (next spaces address) (boot spaces cpu) events).Confined :=
  Run.invariant (next spaces address) (fun _ _ => True) Confined
    (fun m event confined _ => confined_step spaces address m event confined) _ events
    (fun _ live => absurd rfl live) (Run.along_of_forall _ _ (fun _ _ => trivial) _ _)

end Machine

end Opal
