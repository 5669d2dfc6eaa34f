import Opal.ReadyQueue

set_option autoImplicit false

namespace Opal

namespace SchedEvent

def arrivals (history : List SchedEvent) : List Nat :=
  history.filterMap fun event =>
    match event with
    | .enqueued tid _ _ => some tid
    | _ => none

def dispatches (history : List SchedEvent) : List Nat :=
  history.filterMap fun event =>
    match event with
    | .dispatched tid => some tid
    | _ => none

theorem joined_turns (history : List SchedEvent) : Turn.joined (history.filterMap turn) = arrivals history := by
  induction history with
  | nil => rfl
  | cons event rest ih =>
      cases event with
      | enqueued tid accepted count => exact congrArg (List.cons tid) ih
      | dispatched tid => exact ih
      | vanished tid => exact ih

theorem left_turns (history : List SchedEvent) : Turn.left (history.filterMap turn) = dispatches history := by
  induction history with
  | nil => rfl
  | cons event rest ih =>
      cases event with
      | enqueued tid accepted count => exact ih
      | dispatched tid => exact congrArg (List.cons tid) ih
      | vanished tid => exact ih

end SchedEvent

-- First come, first dispatched. Between a task's becoming Ready and its next
-- dispatch no other is dispatched twice.
structure Kernel.RoundRobin (k : Kernel) : Prop where
  waiting : Listing k.ready fun tid => (k.table tid).state = .ready
  inOrder : SchedEvent.arrivals k.history = SchedEvent.dispatches k.history ++ k.ready
  bypass : ∀ before tid accepted count between, k.history = before ++ .enqueued tid accepted count :: between →
    tid ∉ SchedEvent.dispatches between →
      (SchedEvent.dispatches between).Nodup ∧ (SchedEvent.dispatches between).length ≤ 6

theorem Coherent.round_robin {k : Kernel} {running : Option Nat} (coherent : Coherent k running) : k.RoundRobin where
  waiting := coherent.lists
  inOrder := by
    have order := coherent.orderly.in_order
    rwa [Kernel.turns, SchedEvent.joined_turns, SchedEvent.left_turns] at order
  bypass := by
    intro before tid accepted count between split waits
    have turns : k.turns = before.filterMap SchedEvent.turn ++ .joins tid :: between.filterMap SchedEvent.turn := by
      rw [Kernel.turns, split, List.filterMap_append]
      rfl
    rw [← SchedEvent.left_turns] at waits ⊢
    obtain ⟨distinct, few⟩ := coherent.orderly.bypass _ _ tid turns waits
    exact ⟨distinct, Nat.le_of_succ_le_succ few⟩

namespace Machine

-- The ready queue is fair, at every moment of every session.
theorem fifo_round_robin (spaces : AddressSpaces) (address : Static → UInt64) (cpu : Cpu) (events : List Event)
    (session : Run.Along (next spaces address) (fun m event => event.InSession ∧ m.BlockFinds spaces event)
      (boot spaces cpu) events) :
    Run.Always (next spaces address) (fun m => m.kernel.RoundRobin) (boot spaces cpu) events := by
  refine Run.always_of_invariant (next spaces address) _ Scheduled _ ?_ ?_ _ events (boot_scheduled spaces cpu) session
  · intro m event scheduled meets
    exact scheduled_step spaces address m event scheduled meets.1 meets.2
  · intro m scheduled
    by_cases monitor : m.mode = .monitor
    · exact (scheduled.idle monitor).round_robin
    · exact (scheduled.busy monitor).round_robin

-- Three tasks, one of which blocks, is woken by a message and takes its turn
-- behind the task queued before the wake-up.
def wokenInTurn : List Event :=
  [ .spawnAt 1 one_root, .spawnAt 2 two_root, .spawnAt 3 (by decide), .arm, .drop false, .enter fun _ => 0,
    .trap (Trap.svc (registers sysRecvblk [0x200000, 8]) userCodeVa),
    .trap (Trap.svc (registers sysSend [1, 0x200000, 4]) userCodeVa),
    .trap (Trap.tick (fun _ => 0) userCodeVa),
    .trap (Trap.svc (registers sysYield []) userCodeVa) ]

theorem fifo_round_robin_woken :
    SchedEvent.dispatches (Run.exec (next flat fun _ => 0) (boot flat coldCpu) wokenInTurn).kernel.history =
        [1, 2, 3, 1] ∧
      Run.Always (next flat fun _ => 0) (fun m => m.kernel.RoundRobin) (boot flat coldCpu) wokenInTurn :=
  ⟨by decide +kernel, fifo_round_robin flat (fun _ => 0) coldCpu wokenInTurn (by decide +kernel)⟩

end Machine

end Opal
