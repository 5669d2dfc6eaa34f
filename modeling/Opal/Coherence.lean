import Opal.Fifo
import Opal.Handled
import Opal.Listing

set_option autoImplicit false

namespace Opal

-- A history entry that lost nothing: a task was queued, behind at most six
-- others, or dispatched.
def SchedEvent.Fine : SchedEvent → Prop
  | .enqueued _ accepted count => accepted = true ∧ count ≤ 7
  | .dispatched _ => True
  | .vanished _ => False

-- What it did to the ready queue.
def SchedEvent.turn : SchedEvent → Option (Turn Nat)
  | .enqueued tid _ _ => some (.joins tid)
  | .dispatched tid => some (.leaves tid)
  | .vanished _ => none

def Kernel.turns (k : Kernel) : List (Turn Nat) := k.history.filterMap SchedEvent.turn

-- States and ready queue in step. running is the task the core is running on
-- behalf of, none between leaving one task and entering the next.
structure Coherent (k : Kernel) (running : Option Nat) : Prop where
  lists : Listing k.ready fun tid => (k.table tid).state = .ready
  runs : ∀ tid, (k.table tid).state = .running ↔ running = some tid
  confined : ∀ tid, (k.table tid).state ≠ .exited → 0 < tid ∧ tid < maxTasks
  fine : ∀ event ∈ k.history, event.Fine
  orderly : Fifo Kernel.slots k.turns k.ready

namespace Coherent

variable {k : Kernel} {running : Option Nat}

theorem slot (coherent : Coherent k running) (tid : Nat) (member : tid ∈ k.ready) : 0 < tid ∧ tid < maxTasks := by
  refine coherent.confined tid ?_
  rw [(coherent.lists.mem_iff tid).mp member]
  decide

theorem length_le (coherent : Coherent k running) : k.ready.length ≤ 7 :=
  coherent.lists.length_le Kernel.slots fun tid due =>
    (Kernel.mem_slots tid).mpr (coherent.confined tid (by rw [due]; decide))

theorem current_slot (tid : Nat) (coherent : Coherent k (some tid)) : 0 < tid ∧ tid < maxTasks := by
  refine coherent.confined tid ?_
  rw [(coherent.runs tid).mpr rfl]
  decide

theorem current_live (tid : Nat) (coherent : Coherent k (some tid)) : k.task tid = some (k.table tid) := by
  refine Kernel.task_live k tid (current_slot tid coherent).2 ?_
  rw [(coherent.runs tid).mpr rfl]
  decide

theorem retask (coherent : Coherent k running) (tid : Nat) (t : Task) (same : t.state = (k.table tid).state) :
    Coherent (k.setTask tid t) running := by
  have states : ∀ other, ((k.setTask tid t).table other).state = (k.table other).state := fun other => by
    by_cases here : other = tid
    · rw [here, Kernel.set_task_table, Function.update_self, same]
    · rw [Kernel.set_task_table, Function.update_of_ne here]
  exact ⟨coherent.lists.congr fun other => by rw [states], fun other => by rw [states, coherent.runs],
    fun other live => coherent.confined other (by rwa [states] at live), coherent.fine, coherent.orderly⟩

-- A task that was not Ready becomes so and is queued, which leaves it no
-- longer the running one if it was.
theorem admit_ (coherent : Coherent k running) (tid : Nat) (t : Task) (inside : 0 < tid ∧ tid < maxTasks)
    (was : (k.table tid).state ≠ .ready) (now : t.state = .ready) :
    Coherent ((k.setTask tid t).enqueue tid) (if running = some tid then none else running) := by
  have own : ((k.setTask tid t).enqueue tid).table tid = t := by simp
  have other : ∀ i, i ≠ tid → ((k.setTask tid t).enqueue tid).table i = k.table i := fun i apart => by
    simp [Function.update_of_ne apart]
  have lists : Listing (k.ready ++ [tid]) fun i => (((k.setTask tid t).enqueue tid).table i).state = .ready :=
    (coherent.lists.push tid was).congr fun i => by
      by_cases here : i = tid
      · simp [here, now]
      · rw [other i here]
        simp [here]
  have confined : ∀ i, (((k.setTask tid t).enqueue tid).table i).state ≠ .exited → 0 < i ∧ i < maxTasks := by
    intro i live
    by_cases here : i = tid
    · exact here ▸ inside
    · rw [other i here] at live
      exact coherent.confined i live
  have short : (k.ready ++ [tid]).length ≤ 7 :=
    lists.length_le Kernel.slots fun i due =>
      (Kernel.mem_slots i).mpr (confined i (by rw [due]; decide))
  have room : (k.setTask tid t).ready.length < maxTasks := by
    rw [List.length_append, List.length_singleton] at short
    exact Nat.lt_of_succ_le (Nat.le_succ_of_le short)
  have fits : (k.ready ++ [tid]).length ≤ maxTasks := Nat.le_succ_of_le short
  have queue : ((k.setTask tid t).enqueue tid).ready = k.ready ++ [tid] := by
    rw [Kernel.enqueue_ready, Kernel.set_task_ready, List.take_of_length_le fits]
  refine ⟨?_, ?_, confined, ?_, ?_⟩
  · rw [queue]
    exact lists
  · intro i
    by_cases here : i = tid
    · subst here
      rw [own, now]
      by_cases it : running = some i <;> simp [it]
    · rw [other i here, coherent.runs i]
      by_cases it : running = some tid
      · simp [it, Ne.symm here]
      · simp [it]
  · intro event member
    rw [Kernel.enqueue_history _ _ room, List.mem_append, List.mem_singleton] at member
    rcases member with before | last
    · exact coherent.fine event before
    · rw [last]
      rw [List.length_append, List.length_singleton] at short
      exact ⟨rfl, short⟩
  · have logged : ((k.setTask tid t).enqueue tid).turns = k.turns ++ [.joins tid] := by
      rw [Kernel.turns, Kernel.enqueue_history _ _ room, List.filterMap_append]
      rfl
    have absent : tid ∉ k.ready := fun member => was ((coherent.lists.mem_iff tid).mp member)
    rw [logged, queue]
    exact .join k.turns k.ready tid coherent.orderly ((Kernel.mem_slots tid).mpr inside) absent

theorem wake (coherent : Coherent k running) (tid : Nat) (t : Task) (was : (k.table tid).state = .blocked)
    (now : t.state = .ready) : Coherent ((k.setTask tid t).enqueue tid) running := by
  have inside := coherent.confined tid (by rw [was]; decide)
  have elsewhere : running ≠ some tid := fun it => by
    have runs := (coherent.runs tid).mpr it
    rw [was] at runs
    cases runs
  have admitted := coherent.admit_ tid t inside (by rw [was]; decide) now
  rwa [if_neg elsewhere] at admitted

theorem spawn (coherent : Coherent k running) (args : Kernel.SpawnArgs) : Coherent (k.spawn args).2 running := by
  unfold Kernel.spawn Kernel.allocTask
  cases free : Kernel.slots.find? fun tid => (k.table tid).state = .exited with
  | none => exact coherent
  | some tid =>
      have inside := (Kernel.mem_slots tid).mp (List.mem_of_find?_eq_some free)
      have was : (k.table tid).state = .exited := by simpa using List.find?_some free
      have elsewhere : running ≠ some tid := fun it => by
        have runs := (coherent.runs tid).mpr it
        rw [was] at runs
        cases runs
      have admitted := coherent.admit_ tid args.initial inside (by rw [was]; decide) rfl
      have once : (k.setTask tid Task.empty).setTask tid args.initial = k.setTask tid args.initial := by
        simp [Kernel.setTask]
      rw [if_neg elsewhere, ← once] at admitted
      exact admitted

theorem leave (tid : Nat) (coherent : Coherent k (some tid)) (t : Task) (now : t.state = .blocked ∨ t.state = .exited) :
    Coherent (k.setTask tid t) none := by
  have was := (coherent.runs tid).mpr rfl
  have not_ready : t.state ≠ .ready := by rcases now with now | now <;> rw [now] <;> decide
  have not_running : t.state ≠ .running := by rcases now with now | now <;> rw [now] <;> decide
  have own : (k.setTask tid t).table tid = t := by simp
  have other : ∀ i, i ≠ tid → (k.setTask tid t).table i = k.table i := fun i apart => by
    simp [Function.update_of_ne apart]
  refine ⟨coherent.lists.congr fun i => ?_, fun i => ?_, fun i live => ?_, coherent.fine, coherent.orderly⟩
  · by_cases here : i = tid
    · rw [here, own, was]
      exact ⟨fun no => (by cases no), fun no => absurd no not_ready⟩
    · rw [other i here]
  · by_cases here : i = tid
    · rw [here, own]
      exact ⟨fun no => absurd no not_running, fun no => (by cases no)⟩
    · rw [other i here, coherent.runs i]
      exact ⟨fun same => absurd (Option.some.inj same).symm here, fun no => (by cases no)⟩
  · by_cases here : i = tid
    · exact here ▸ current_slot tid coherent
    · rw [other i here] at live
      exact coherent.confined i live

-- A scan that only ever wakes Blocked tasks.
def OnlyWakes (look : Task → Task × Bool) : Prop :=
  ∀ t, if (look t).2 then t.state = .blocked ∧ (look t).1.state = .ready else (look t).1.state = t.state

theorem visit (look : Task → Task × Bool) (only : OnlyWakes look) (coherent : Coherent k running) (tid : Nat) :
    Coherent (Kernel.visit look k tid) running := by
  have here := only (k.table tid)
  by_cases woken : (look (k.table tid)).2
  · rw [if_pos woken] at here
    simp only [Kernel.visit, woken, if_true]
    exact coherent.wake tid _ here.1 here.2
  · rw [if_neg woken] at here
    simp only [Kernel.visit, woken]
    exact coherent.retask tid _ here

theorem sweep (look : Task → Task × Bool) (only : OnlyWakes look) (coherent : Coherent k running) :
    Coherent (k.sweep look) running := by
  unfold Kernel.sweep
  generalize Kernel.slots = tids
  induction tids generalizing k with
  | nil => exact coherent
  | cons tid rest ih => exact ih (coherent.visit look only tid)

theorem dispatch (coherent : Coherent k none) (next : Nat) (rest : List Nat) (t : Task)
    (waiting : k.ready = next :: rest) (found : k.task next = some t) :
    Coherent (k.popped.dispatch next t) (some next) := by
  obtain ⟨_, _, same⟩ := (Kernel.task_eq_some k next t).mp found
  have due := coherent.lists
  rw [waiting] at due
  have own : (k.popped.dispatch next t).table next = { t with state := .running } := by
    simp [Kernel.dispatch, Kernel.popped, Kernel.setTask]
  have other : ∀ i, i ≠ next → (k.popped.dispatch next t).table i = k.table i := fun i apart => by
    simp [Kernel.dispatch, Kernel.popped, Kernel.setTask, Function.update_of_ne apart]
  have left : (k.popped.dispatch next t).ready = rest := Kernel.popped_ready k next rest waiting
  refine ⟨?_, fun i => ?_, fun i live => ?_, fun event member => ?_, ?_⟩
  · rw [left]
    refine (Listing.pop next rest due).congr fun i => ?_
    by_cases here : i = next
    · simp [here, own]
    · rw [other i here]
      simp [here]
  · by_cases here : i = next
    · simp [here, own]
    · rw [other i here, coherent.runs i]
      simp [Ne.symm here]
  · by_cases here : i = next
    · exact here ▸ coherent.slot next (by rw [waiting]; exact List.mem_cons_self)
    · rw [other i here] at live
      exact coherent.confined i live
  · simp only [Kernel.dispatch, List.mem_append, List.mem_singleton] at member
    rcases member with before | last
    · exact coherent.fine event before
    · rw [last]
      trivial
  · have logged : (k.popped.dispatch next t).turns = k.turns ++ [.leaves next] := by
      simp only [Kernel.turns, Kernel.dispatch, Kernel.popped, List.filterMap_append]
      rfl
    have orderly := coherent.orderly
    rw [waiting] at orderly
    rw [logged, left]
    exact .leave k.turns next rest orderly

theorem switch (coherent : Coherent k none) (frame : TrapFrame) :
    (k.ready = [] ∧ k.switchToNext frame = (false, k, frame)) ∨
      (∃ next rest, k.ready = next :: rest ∧
        k.switchToNext frame = (true, k.popped.dispatch next (k.table next), (k.table next).saved) ∧
        Coherent (k.popped.dispatch next (k.table next)) (some next)) := by
  rcases Kernel.switch_cases k frame with ⟨nobody, same⟩ | ⟨next, rest, waiting, gone, _⟩ | ⟨next, rest, t, waiting, found, same⟩
  · exact .inl ⟨nobody, same⟩
  · have member : next ∈ k.ready := by
      rw [waiting]
      exact List.mem_cons_self
    have live := Kernel.task_live k next (coherent.slot next member).2 (by
      rw [(coherent.lists.mem_iff next).mp member]
      decide)
    rw [gone] at live
    cases live
  · obtain ⟨_, _, rfl⟩ := (Kernel.task_eq_some k next t).mp found
    exact .inr ⟨next, rest, waiting, same, coherent.dispatch next rest _ waiting found⟩

end Coherent

end Opal
