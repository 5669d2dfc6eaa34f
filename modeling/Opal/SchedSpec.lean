import Opal.Sched

set_option autoImplicit false

namespace Opal

namespace Kernel

@[simp] theorem set_task_table (k : Kernel) (tid : Nat) (t : Task) :
    (k.setTask tid t).table = Function.update k.table tid t := rfl

@[simp] theorem set_task_ready (k : Kernel) (tid : Nat) (t : Task) : (k.setTask tid t).ready = k.ready := rfl

@[simp] theorem set_task_current (k : Kernel) (tid : Nat) (t : Task) : (k.setTask tid t).currentTid = k.currentTid := rfl

@[simp] theorem enqueue_table (k : Kernel) (tid : Nat) : (k.enqueue tid).table = k.table := rfl

@[simp] theorem enqueue_current (k : Kernel) (tid : Nat) : (k.enqueue tid).currentTid = k.currentTid := rfl

@[simp] theorem enqueue_ready (k : Kernel) (tid : Nat) : (k.enqueue tid).ready = (k.ready ++ [tid]).take maxTasks :=
  RingBuffer.enqueue_to_list k.scheduler tid

theorem enqueue_history (k : Kernel) (tid : Nat) (room : k.ready.length < maxTasks) :
    (k.enqueue tid).history = k.history ++ [.enqueued tid true (k.ready.length + 1)] := by
  have accepts := RingBuffer.enqueue_accepts k.scheduler tid
  have count : (k.scheduler.enqueue tid).2.count = k.ready.length + 1 := by
    have waiting : (k.enqueue tid).ready = k.ready ++ [tid] := by
      rw [enqueue_ready, List.take_of_length_le]
      rw [List.length_append, List.length_singleton]
      exact room
    have length := congrArg List.length waiting
    simpa [ready, enqueue] using length
  simp only [ready] at room
  simp only [enqueue, accepts, count, decide_eq_true room]

theorem task_eq_some (k : Kernel) (tid : Nat) (t : Task) :
    k.task tid = some t ↔ tid < maxTasks ∧ (k.table tid).state ≠ .exited ∧ k.table tid = t := by
  unfold task
  by_cases high : tid ≥ maxTasks
  · simp [high]
  · by_cases gone : (k.table tid).state = .exited
    · simp [high, gone]
    · simp [high, gone, Nat.lt_of_not_ge high]

theorem task_live (k : Kernel) (tid : Nat) (low : tid < maxTasks) (live : (k.table tid).state ≠ .exited) :
    k.task tid = some (k.table tid) := (task_eq_some k tid _).mpr ⟨low, live, rfl⟩

theorem edit_task_live (k : Kernel) (tid : Nat) (edit : Task → Task) (low : tid < maxTasks)
    (live : (k.table tid).state ≠ .exited) : k.editTask tid edit = k.setTask tid (edit (k.table tid)) := by
  simp only [editTask, task_live k tid low live]

theorem mem_slots (tid : Nat) : tid ∈ slots ↔ 0 < tid ∧ tid < maxTasks := by
  simp only [slots, List.mem_range'_1, maxTasks]
  omega

theorem slots_nodup : slots.Nodup := List.nodup_range'

-- Queueing several tasks in turn, as a scan does.
def enqueueAll (k : Kernel) (tids : List Nat) : Kernel := tids.foldl enqueue k

@[simp] theorem enqueue_all_table (k : Kernel) (tids : List Nat) : (k.enqueueAll tids).table = k.table := by
  induction tids generalizing k with
  | nil => rfl
  | cons tid rest ih => exact ih (k.enqueue tid)

@[simp] theorem enqueue_all_current (k : Kernel) (tids : List Nat) :
    (k.enqueueAll tids).currentTid = k.currentTid := by
  induction tids generalizing k with
  | nil => rfl
  | cons tid rest ih => exact ih (k.enqueue tid)

theorem ready_length_le (k : Kernel) : k.ready.length ≤ maxTasks := RingBuffer.length_le_cap k.scheduler

theorem take_append_take {α : Type} (n : Nat) (a b : List α) : (a.take n ++ b).take n = (a ++ b).take n := by
  by_cases short : a.length ≤ n
  · rw [List.take_of_length_le short]
  · have long : n ≤ a.length := by omega
    rw [List.take_append_of_le_length (by simpa using long), List.take_take, Nat.min_self,
      List.take_append_of_le_length long]

-- Whoever is not among those put behind it heads the longer queue if it heads
-- the shorter.
theorem head_appended (queue fresh : List Nat) (tid : Nat) (absent : tid ∉ fresh) :
    ((queue ++ fresh).take maxTasks).head? = some tid ↔ queue.head? = some tid := by
  cases queue with
  | nil =>
      refine ⟨fun first => ?_, fun no => (by cases no)⟩
      exact absurd (List.mem_of_mem_take (List.mem_of_head? first)) absent
  | cons first rest => simp [maxTasks]

theorem enqueue_all_ready (k : Kernel) (tids : List Nat) :
    (k.enqueueAll tids).ready = (k.ready ++ tids).take maxTasks := by
  induction tids generalizing k with
  | nil => simp [enqueueAll, List.take_of_length_le (ready_length_le k)]
  | cons tid rest ih =>
      have step : (k.enqueueAll (tid :: rest)) = (k.enqueue tid).enqueueAll rest := rfl
      rw [step, ih, enqueue_ready, take_append_take]
      simp

theorem enqueue_all_frame (k : Kernel) (tids : List Nat) :
    ∃ ring events, k.enqueueAll tids = { k with scheduler := ring, history := events } := by
  induction tids generalizing k with
  | nil => exact ⟨k.scheduler, k.history, rfl⟩
  | cons tid rest ih => exact ih (k.enqueue tid)

-- The table after a scan of some slots.
def scanned (table : Nat → Task) (tids : List Nat) (look : Task → Task × Bool) (tid : Nat) : Task :=
  if tid ∈ tids then (look (table tid)).1 else table tid

def scanWakes (table : Nat → Task) (tids : List Nat) (look : Task → Task × Bool) : List Nat :=
  tids.filter fun tid => (look (table tid)).2

-- A visit reads and writes its own slot only, so the scan is one simultaneous
-- update of the table followed by the wakes in slot order.
theorem fold_visit (look : Task → Task × Bool) (k : Kernel) (tids : List Nat) (distinct : tids.Nodup) :
    tids.foldl (visit look) k =
      ({ k with table := scanned k.table tids look }).enqueueAll (scanWakes k.table tids look) := by
  induction tids generalizing k with
  | nil => rfl
  | cons tid rest ih =>
      obtain ⟨fresh, distinct⟩ := List.nodup_cons.mp distinct
      have kept : ∀ other ∈ rest, (visit look k tid).table other = k.table other := fun other member => by
        have apart : other ≠ tid := fun same => fresh (same ▸ member)
        by_cases woken : (look (k.table tid)).2 <;> simp [visit, woken, Function.update_of_ne apart]
      have own : (visit look k tid).table tid = (look (k.table tid)).1 := by
        by_cases woken : (look (k.table tid)).2 <;> simp [visit, woken]
      have elsewhere : ∀ other, other ≠ tid → (visit look k tid).table other = k.table other := fun other apart => by
        by_cases woken : (look (k.table tid)).2 <;> simp [visit, woken, Function.update_of_ne apart]
      have tables : scanned (visit look k tid).table rest look = scanned k.table (tid :: rest) look := by
        funext other
        by_cases same : other = tid
        · subst same
          simp [scanned, fresh, own]
        · by_cases member : other ∈ rest <;> simp [scanned, member, same, elsewhere other same]
      have wakes : scanWakes (visit look k tid).table rest look = scanWakes k.table rest look :=
        List.filter_congr fun other member => by rw [kept other member]
      rw [List.foldl_cons, ih _ distinct, tables, wakes]
      by_cases woken : (look (k.table tid)).2
      · have split : scanWakes k.table (tid :: rest) look = tid :: scanWakes k.table rest look := by
          simp [scanWakes, woken]
        rw [split]
        simp only [visit, woken, if_true]
        rfl
      · have skip : scanWakes k.table (tid :: rest) look = scanWakes k.table rest look := by
          simp [scanWakes, woken]
        rw [skip]
        simp only [visit, woken]
        rfl

theorem sweep_eq (k : Kernel) (look : Task → Task × Bool) :
    k.sweep look = ({ k with table := scanned k.table slots look }).enqueueAll (scanWakes k.table slots look) := by
  unfold sweep
  exact fold_visit look k slots slots_nodup

theorem sweep_table (k : Kernel) (look : Task → Task × Bool) (tid : Nat) :
    (k.sweep look).table tid = if 0 < tid ∧ tid < maxTasks then (look (k.table tid)).1 else k.table tid := by
  simp only [sweep_eq, enqueue_all_table, scanned, mem_slots]

@[simp] theorem sweep_current (k : Kernel) (look : Task → Task × Bool) : (k.sweep look).currentTid = k.currentTid := by
  simp only [sweep_eq, enqueue_all_current]

theorem sweep_frame (k : Kernel) (look : Task → Task × Bool) :
    ∃ table ring events, k.sweep look = { k with table := table, scheduler := ring, history := events } := by
  obtain ⟨ring, events, same⟩ := enqueue_all_frame { k with table := scanned k.table slots look }
    (scanWakes k.table slots look)
  exact ⟨scanned k.table slots look, ring, events, (sweep_eq k look).trans same⟩

theorem sweep_preempt (k : Kernel) (look : Task → Task × Bool) : (k.sweep look).preempt = k.preempt := by
  obtain ⟨_, _, _, same⟩ := sweep_frame k look
  rw [same]

theorem sweep_ready (k : Kernel) (look : Task → Task × Bool) :
    (k.sweep look).ready = (k.ready ++ scanWakes k.table slots look).take maxTasks := by
  rw [sweep_eq, enqueue_all_ready]
  rfl

theorem mem_scan_wakes (k : Kernel) (look : Task → Task × Bool) (tid : Nat) :
    tid ∈ scanWakes k.table slots look ↔ (0 < tid ∧ tid < maxTasks) ∧ (look (k.table tid)).2 = true := by
  simp only [scanWakes, List.mem_filter, mem_slots]

-- The kernel once the head of the ready queue is taken off.
def popped (k : Kernel) : Kernel := { k with scheduler := k.scheduler.dequeue.2 }

theorem popped_ready (k : Kernel) (tid : Nat) (rest : List Nat) (waiting : k.ready = tid :: rest) :
    k.popped.ready = rest := (RingBuffer.dequeue_cons k.scheduler tid rest waiting).2

theorem switch_empty (k : Kernel) (frame : TrapFrame) (nobody : k.ready = []) :
    k.switchToNext frame = (false, k, frame) := by
  simp only [switchToNext, RingBuffer.dequeue_nil k.scheduler nobody]

theorem switch_vanished (k : Kernel) (frame : TrapFrame) (next : Nat) (rest : List Nat)
    (waiting : k.ready = next :: rest) (gone : k.task next = none) :
    k.switchToNext frame = (false, k.popped.record (.vanished next), frame) := by
  obtain ⟨head, _⟩ := RingBuffer.dequeue_cons k.scheduler next rest waiting
  unfold switchToNext
  split
  · next none_ => simp [none_] at head
  · next first tail some_ =>
      simp only [some_, Option.some.injEq] at head
      subst head
      have gone' : ({ k with scheduler := tail } : Kernel).task first = none := gone
      simp only [gone', popped, some_]

theorem switch_found (k : Kernel) (frame : TrapFrame) (next : Nat) (rest : List Nat) (t : Task)
    (waiting : k.ready = next :: rest) (found : k.task next = some t) :
    k.switchToNext frame = (true, k.popped.dispatch next t, t.saved) := by
  obtain ⟨head, _⟩ := RingBuffer.dequeue_cons k.scheduler next rest waiting
  unfold switchToNext
  split
  · next none_ => simp [none_] at head
  · next first tail some_ =>
      simp only [some_, Option.some.injEq] at head
      subst head
      have found' : ({ k with scheduler := tail } : Kernel).task first = some t := found
      simp only [found', popped, some_]

-- Everything switch_to_next can do.
theorem switch_cases (k : Kernel) (frame : TrapFrame) :
    (k.ready = [] ∧ k.switchToNext frame = (false, k, frame)) ∨
      (∃ next rest, k.ready = next :: rest ∧ k.task next = none ∧
        k.switchToNext frame = (false, k.popped.record (.vanished next), frame)) ∨
      (∃ next rest t, k.ready = next :: rest ∧ k.task next = some t ∧
        k.switchToNext frame = (true, k.popped.dispatch next t, t.saved)) := by
  cases waiting : k.ready with
  | nil => exact .inl ⟨rfl, switch_empty k frame waiting⟩
  | cons next rest =>
      cases found : k.task next with
      | none => exact .inr (.inl ⟨next, rest, rfl, found, switch_vanished k frame next rest waiting found⟩)
      | some t => exact .inr (.inr ⟨next, rest, t, rfl, found, switch_found k frame next rest t waiting found⟩)

theorem edit_task_table (k : Kernel) (tid : Nat) (edit : Task → Task) (other : Nat) :
    (k.editTask tid edit).table other =
      if other = tid ∧ tid < maxTasks ∧ (k.table tid).state ≠ .exited then edit (k.table other) else k.table other := by
  unfold editTask
  cases found : k.task tid with
  | none =>
      rw [if_neg]
      rintro ⟨_, low, live⟩
      rw [task_live k tid low live] at found
      cases found
  | some t =>
      obtain ⟨low, live, rfl⟩ := (task_eq_some k tid t).mp found
      by_cases here : other = tid
      · subst here
        simp [low, live]
      · simp [here]

@[simp] theorem edit_task_ready (k : Kernel) (tid : Nat) (edit : Task → Task) : (k.editTask tid edit).ready = k.ready := by
  unfold editTask
  split <;> rfl

@[simp] theorem edit_task_current (k : Kernel) (tid : Nat) (edit : Task → Task) :
    (k.editTask tid edit).currentTid = k.currentTid := by
  unfold editTask
  split <;> rfl

theorem task_isSome (k : Kernel) (tid : Nat) :
    (k.task tid).isSome = true ↔ tid < maxTasks ∧ (k.table tid).state ≠ .exited := by
  constructor
  · intro some_
    obtain ⟨t, found⟩ := Option.isSome_iff_exists.mp some_
    exact ⟨((task_eq_some k tid t).mp found).1, ((task_eq_some k tid t).mp found).2.1⟩
  · rintro ⟨low, live⟩
    rw [task_live k tid low live]
    rfl

theorem switch_succeeds (k : Kernel) (frame : TrapFrame) :
    (k.switchToNext frame).1 = true ↔ ∃ next rest, k.ready = next :: rest ∧ (k.task next).isSome = true := by
  rcases switch_cases k frame with ⟨nobody, same⟩ | ⟨next, rest, waiting, gone, same⟩ | ⟨next, rest, t, waiting, found, same⟩
  · simp [same, nobody]
  · simp [same, waiting, gone]
  · simp [same, waiting, found]

theorem switch_fails_current (k : Kernel) (frame : TrapFrame) (fails : (k.switchToNext frame).1 = false) :
    (k.switchToNext frame).2.1.currentTid = k.currentTid := by
  rcases switch_cases k frame with ⟨_, same⟩ | ⟨_, _, _, _, same⟩ | ⟨_, _, _, _, _, same⟩
  · rw [same]
  · rw [same]
    rfl
  · rw [same] at fails
    cases fails

theorem switch_fails_table (k : Kernel) (frame : TrapFrame) (fails : (k.switchToNext frame).1 = false) :
    (k.switchToNext frame).2.1.table = k.table := by
  rcases switch_cases k frame with ⟨_, same⟩ | ⟨_, _, _, _, same⟩ | ⟨_, _, _, _, _, same⟩
  · rw [same]
  · rw [same]
    rfl
  · rw [same] at fails
    cases fails

theorem switch_fails_frame (k : Kernel) (frame : TrapFrame) (fails : (k.switchToNext frame).1 = false) :
    (k.switchToNext frame).2.2 = frame := by
  rcases switch_cases k frame with ⟨_, same⟩ | ⟨_, _, _, _, same⟩ | ⟨_, _, _, _, _, same⟩
  · rw [same]
  · rw [same]
  · rw [same] at fails
    cases fails

theorem switch_still_blocked (k : Kernel) (frame : TrapFrame) (tid : Nat) (low : tid < maxTasks) :
    ((k.switchToNext frame).2.1.table tid).state = .blocked ↔
      (k.table tid).state = .blocked ∧ k.ready.head? ≠ some tid := by
  rcases switch_cases k frame with ⟨nobody, same⟩ | ⟨next, rest, waiting, gone, same⟩ | ⟨next, rest, t, waiting, found, same⟩
  · simp [same, nobody]
  · rw [same, waiting]
    have apart : (k.table tid).state = .blocked → next ≠ tid := by
      rintro asleep rfl
      rw [task_live k next low (by rw [asleep]; decide)] at gone
      cases gone
    constructor
    · intro asleep
      exact ⟨asleep, by simpa using apart asleep⟩
    · exact fun both => both.1
  · obtain ⟨_, _, rfl⟩ := (task_eq_some k next t).mp found
    rw [same, waiting]
    by_cases here : tid = next
    · subst here
      simp [dispatch, popped, setTask]
    · simp [dispatch, popped, setTask, here, Ne.symm here]

-- save_and_switch stores the frame in the current task whatever its state, and
-- queues it only if it was running.
theorem save_table (k : Kernel) (frame : TrapFrame) (tid : Nat) :
    (k.saveCurrent frame).table tid =
      if tid = k.currentTid ∧ k.currentTid ≠ 0 ∧ k.currentTid < maxTasks ∧ (k.table k.currentTid).state ≠ .exited then
        { k.table tid with
          saved := frame
          state := if (k.table tid).state = .running then .ready else (k.table tid).state }
      else k.table tid := by
  unfold saveCurrent
  by_cases kernel : k.currentTid = 0
  · simp [kernel]
  · rw [if_neg kernel]
    cases found : k.task k.currentTid with
    | none =>
        rw [if_neg]
        rintro ⟨_, _, low, live⟩
        rw [task_live k _ low live] at found
        cases found
    | some t =>
        obtain ⟨low, live, rfl⟩ := (task_eq_some k _ t).mp found
        by_cases here : tid = k.currentTid
        · subst here
          by_cases running : (k.table k.currentTid).state = .running
          · simp [running, kernel, low]
          · simp [running, kernel, low, live]
        · by_cases running : (k.table k.currentTid).state = .running
          · simp [here, running]
          · simp [here, running]

@[simp] theorem save_current (k : Kernel) (frame : TrapFrame) : (k.saveCurrent frame).currentTid = k.currentTid := by
  unfold saveCurrent
  split_ifs
  · rfl
  · split
    · rfl
    · split_ifs
      · rfl
      · rfl

theorem save_ready (k : Kernel) (frame : TrapFrame) :
    (k.saveCurrent frame).ready =
      if k.currentTid ≠ 0 ∧ k.currentTid < maxTasks ∧ (k.table k.currentTid).state = .running then
        (k.ready ++ [k.currentTid]).take maxTasks
      else k.ready := by
  unfold saveCurrent
  by_cases kernel : k.currentTid = 0
  · simp [kernel]
  · rw [if_neg kernel]
    cases found : k.task k.currentTid with
    | none =>
        rw [if_neg]
        rintro ⟨_, low, runs⟩
        rw [task_live k _ low (by rw [runs]; decide)] at found
        cases found
    | some t =>
        obtain ⟨low, _, rfl⟩ := (task_eq_some k _ t).mp found
        by_cases running : (k.table k.currentTid).state = .running
        · simp [running, kernel, low]
        · simp [running]

theorem deposit_table (k : Kernel) (dst : Nat) (data : List UInt8) (tid : Nat) :
    (k.deposit dst data).table tid =
      if tid = dst then
        { k.table tid with
          mailbox := copyPrefix (k.table dst).mailbox (data.take msgMax)
          mailboxLen := min data.length msgMax
          mailboxFrom := k.currentTid
          state := if (k.table dst).state = .blocked then .ready else (k.table dst).state }
      else k.table tid := by
  unfold deposit
  by_cases here : tid = dst
  · subst here
    by_cases asleep : (k.table tid).state = .blocked
    · simp [asleep]
    · simp [asleep]
  · by_cases asleep : (k.table dst).state = .blocked
    · simp [asleep, here]
    · simp [asleep, here]

@[simp] theorem deposit_current (k : Kernel) (dst : Nat) (data : List UInt8) :
    (k.deposit dst data).currentTid = k.currentTid := by
  unfold deposit
  dsimp only
  split_ifs
  · rfl
  · rfl

@[simp] theorem drain_current (k : Kernel) (cur : Nat) : (k.drain cur).currentTid = k.currentTid := sweep_current _ _

theorem drain_table (k : Kernel) (cur tid : Nat) :
    (k.drain cur).table tid =
      let t := if tid = cur then { k.table tid with mailboxLen := 0, mailboxFrom := 0 } else k.table tid
      if 0 < tid ∧ tid < maxTasks then (wakesSender cur t).1 else t := by
  unfold drain wakeBlockedSenders
  rw [sweep_table]
  by_cases here : tid = cur
  · subst here
    simp
  · simp [here]

theorem ipc_send_ok (k : Kernel) (dst : Nat) (data : List UInt8) (after : Kernel) :
    k.ipcSend dst data = .ok after ↔
      (0 < dst ∧ dst < maxTasks) ∧ (k.table dst).state ≠ .exited ∧ (k.table dst).mailboxLen = 0 ∧
        after = k.deposit dst data := by
  unfold ipcSend
  by_cases range : dst = 0 ∨ dst ≥ maxTasks
  · simp only [range, if_true]
    constructor
    · exact fun no => (by cases no)
    · rintro ⟨inside, _⟩
      omega
  · have inside : 0 < dst ∧ dst < maxTasks := by omega
    by_cases gone : (k.table dst).state = .exited
    · simp [range, gone]
    · by_cases full : (k.table dst).mailboxLen > 0
      · have some_ : (k.table dst).mailboxLen ≠ 0 := Nat.ne_of_gt full
        simp [range, gone, full, some_]
      · have empty : (k.table dst).mailboxLen = 0 := Nat.eq_zero_of_not_pos full
        rw [if_neg range, if_neg gone, if_neg full, Except.ok.injEq]
        exact ⟨fun same => ⟨inside, gone, empty, same.symm⟩, fun all => all.2.2.2.symm⟩

theorem ipc_send_full (k : Kernel) (dst : Nat) (data : List UInt8) (refused : k.ipcSend dst data = .error eagain) :
    (0 < dst ∧ dst < maxTasks) ∧ (k.table dst).state ≠ .exited ∧ 0 < (k.table dst).mailboxLen := by
  unfold ipcSend at refused
  split_ifs at refused with range gone full
  · exact absurd (Except.error.inj refused) (by decide)
  · exact absurd (Except.error.inj refused) (by decide)
  · exact ⟨by omega, gone, full⟩

theorem ipc_recv_ok (k : Kernel) (bufLen : Nat) (msg : List UInt8) (sender : Nat) (after : Kernel) :
    k.ipcRecv bufLen = .ok (msg, sender, after) ↔
      (0 < k.currentTid ∧ k.currentTid < maxTasks) ∧ 0 < (k.table k.currentTid).mailboxLen ∧
        msg = (k.table k.currentTid).mailbox.toList.take (min (k.table k.currentTid).mailboxLen bufLen) ∧
        sender = (k.table k.currentTid).mailboxFrom ∧ after = k.drain k.currentTid := by
  unfold ipcRecv
  by_cases range : k.currentTid = 0 ∨ k.currentTid ≥ maxTasks
  · simp only [range, if_true]
    constructor
    · exact fun no => (by cases no)
    · rintro ⟨inside, _⟩
      omega
  · have inside : 0 < k.currentTid ∧ k.currentTid < maxTasks := by omega
    by_cases empty : (k.table k.currentTid).mailboxLen = 0
    · simp [range, empty]
    · have some_ : 0 < (k.table k.currentTid).mailboxLen := Nat.pos_of_ne_zero empty
      simp only [range, empty, inside, some_, if_false, Except.ok.injEq, Prod.mk.injEq, and_self, true_and]
      constructor
      · rintro ⟨rfl, rfl, rfl⟩
        exact ⟨rfl, rfl, rfl⟩
      · rintro ⟨rfl, rfl, rfl⟩
        exact ⟨rfl, rfl, rfl⟩

theorem ipc_recv_empty (k : Kernel) (bufLen : Nat) (e : Int64) (inside : 0 < k.currentTid ∧ k.currentTid < maxTasks)
    (refused : k.ipcRecv bufLen = .error e) : (k.table k.currentTid).mailboxLen = 0 := by
  unfold ipcRecv at refused
  dsimp only at refused
  split_ifs at refused with range empty
  · omega
  · exact empty

theorem try_wait_ok (k : Kernel) (child : Nat) (code : Int64) :
    k.tryWait child = .ok code ↔
      (0 < child ∧ child < maxTasks) ∧ (k.table child).state = .exited ∧ code = (k.table child).exitCode := by
  unfold tryWait
  by_cases range : child = 0 ∨ child ≥ maxTasks
  · simp only [range, if_true]
    constructor
    · exact fun no => (by cases no)
    · rintro ⟨inside, _⟩
      omega
  · have inside : 0 < child ∧ child < maxTasks := by omega
    by_cases gone : (k.table child).state = .exited
    · simp only [range, gone, inside, if_true, if_false, Except.ok.injEq, and_self, true_and]
      exact eq_comm
    · simp [range, gone]

theorem try_wait_alive (k : Kernel) (child : Nat) :
    k.tryWait child = .error eagain ↔ (0 < child ∧ child < maxTasks) ∧ (k.table child).state ≠ .exited := by
  unfold tryWait
  by_cases range : child = 0 ∨ child ≥ maxTasks
  · simp only [range, if_true, Except.error.injEq]
    constructor
    · exact fun same => absurd same (by decide)
    · rintro ⟨inside, _⟩
      omega
  · have inside : 0 < child ∧ child < maxTasks := by omega
    by_cases gone : (k.table child).state = .exited
    · simp [range, gone]
    · simp [range, gone, inside]

-- The tasks the switch functions have given the core to, in order.
def dispatches (k : Kernel) : List Nat :=
  k.history.filterMap fun event =>
    match event with
    | .dispatched tid => some tid
    | _ => none

theorem enqueue_dispatches (k : Kernel) (tid : Nat) : (k.enqueue tid).dispatches = k.dispatches := by
  simp [dispatches, enqueue]

theorem enqueue_all_dispatches (k : Kernel) (tids : List Nat) : (k.enqueueAll tids).dispatches = k.dispatches := by
  induction tids generalizing k with
  | nil => rfl
  | cons tid rest ih => exact (ih (k.enqueue tid)).trans (enqueue_dispatches k tid)

-- The handler is still working for the task it was entered for.
structure SameTask (k k' : Kernel) : Prop where
  current : k'.currentTid = k.currentTid
  root : k'.ttbr0 = k.ttbr0
  dispatches : k'.dispatches = k.dispatches

namespace SameTask

variable {a b c : Kernel}

theorem refl (k : Kernel) : SameTask k k := ⟨rfl, rfl, rfl⟩

theorem trans (first : SameTask a b) (second : SameTask b c) : SameTask a c :=
  ⟨second.current.trans first.current, second.root.trans first.root, second.dispatches.trans first.dispatches⟩

section
variable (k : Kernel)

theorem set_task (tid : Nat) (t : Task) : SameTask k (k.setTask tid t) := ⟨rfl, rfl, rfl⟩

theorem enqueue (tid : Nat) : SameTask k (k.enqueue tid) := ⟨rfl, rfl, enqueue_dispatches k tid⟩

theorem edit (tid : Nat) (change : Task → Task) : SameTask k (k.editTask tid change) := by
  unfold editTask
  split
  · exact refl k
  · exact set_task k tid _

theorem sweep (look : Task → Task × Bool) : SameTask k (k.sweep look) := by
  have queued := enqueue_all_dispatches { k with table := scanned k.table slots look } (scanWakes k.table slots look)
  obtain ⟨ring, events, same⟩ := enqueue_all_frame { k with table := scanned k.table slots look }
    (scanWakes k.table slots look)
  rw [sweep_eq, same]
  rw [same] at queued
  exact ⟨rfl, rfl, queued⟩

theorem save (frame : TrapFrame) : SameTask k (k.saveCurrent frame) := by
  unfold saveCurrent
  split_ifs
  · exact refl k
  · split
    · exact refl k
    · split_ifs
      · exact (set_task k _ _).trans (enqueue _ _)
      · exact set_task k _ _

theorem deposit (dst : Nat) (data : List UInt8) : SameTask k (k.deposit dst data) := by
  unfold Kernel.deposit
  dsimp only
  split_ifs
  · exact (set_task k _ _).trans (enqueue _ _)
  · exact set_task k _ _

theorem drain (cur : Nat) : SameTask k (k.drain cur) := (set_task k cur _).trans (sweep _ _)

theorem vanished (tid : Nat) : SameTask k (k.popped.record (.vanished tid)) := by
  refine ⟨rfl, rfl, ?_⟩
  simp [Kernel.dispatches, record, popped]

end

end SameTask

theorem dispatch_dispatches (k : Kernel) (next : Nat) (t : Task) :
    (k.popped.dispatch next t).dispatches = k.dispatches ++ [next] := by
  simp [dispatches, dispatch, popped]

theorem switch_dispatches (k : Kernel) (frame : TrapFrame) (finds : (k.switchToNext frame).1 = true) :
    (k.switchToNext frame).2.1.dispatches ≠ k.dispatches := by
  rcases switch_cases k frame with ⟨_, same⟩ | ⟨_, _, _, _, same⟩ | ⟨next, _, t, _, _, same⟩
  · rw [same] at finds
    cases finds
  · rw [same] at finds
    cases finds
  · rw [same, dispatch_dispatches]
    simp

end Kernel

end Opal
