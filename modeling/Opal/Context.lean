import Opal.Handover
import Opal.ReadyQueue

set_option autoImplicit false

namespace Opal

-- What the machine owes a task that is not running: the context it left or was
-- spawned with, the root of its address space, and its stack pointer.
structure Owed where
  frame : TrapFrame
  root : UInt64
  spEl0 : UInt64

namespace Machine

-- The entry of a task just spawned into the slot alloc_task found.
def bornEntry (args : Kernel.SpawnArgs) (owed : Nat → Owed) : Option Nat → Nat → Owed
  | none => owed
  | some fresh => Function.update owed fresh ⟨args.initial.saved, args.ttbr0Pa, args.sp⟩

-- The entry of the task that takes an exception, brought up to date.
def ownEntry (spaces : AddressSpaces) (m : Machine) (t : Trap) (owed : Nat → Owed) : Nat → Owed :=
  Function.update owed m.kernel.currentTid
    { owed m.kernel.currentTid with
      frame := leaving spaces m.kernel (m.memAt t) (t.frame m.cpu.spEl1) t
      spEl0 := t.spEl0 }

-- The history of what each task is owed. A spawn starts it, and each exception
-- a task takes brings its own entry up to date.
def owes (spaces : AddressSpaces) (m : Machine) (event : Event) (_ : Machine) (owed : Nat → Owed) : Nat → Owed :=
  match event with
  | .spawn args => if m.enabled (.spawn args) then bornEntry args owed m.kernel.allocTask.1 else owed
  | .trap t => if m.serves t then ownEntry spaces m t owed else owed
  | _ => owed

-- No context and no address space of a task that is not running has changed,
-- and EL0 runs in the address space of the current task.
structure Isolated (m : Machine) (owed : Nat → Owed) : Prop where
  contexts : ∀ tid, (m.kernel.table tid).state ≠ .exited → tid ≠ m.kernel.currentTid →
    (m.kernel.table tid).saved = (owed tid).frame
  roots : ∀ tid, (m.kernel.table tid).state ≠ .exited → (m.kernel.table tid).ttbr0Pa = (owed tid).root
  space : m.mode = .el0 → m.kernel.ttbr0 = (m.kernel.table m.kernel.currentTid).ttbr0Pa

-- A step that dispatches a task loads the context that task is owed.
def HandsOver (spaces : AddressSpaces) (address : Static → UInt64) (pair : Machine × (Nat → Owed)) (event : Event) : Prop :=
  let after := pair.1.next spaces address event
  let owed := owes spaces pair.1 event after pair.2
  ∀ t, event = .trap t → after.mode = .el0 → after.kernel.dispatches ≠ pair.1.kernel.dispatches →
    after.cpu.x = (owed after.kernel.currentTid).frame.x ∧ after.cpu.pc = (owed after.kernel.currentTid).frame.elr ∧
      after.cpu.pstate = (owed after.kernel.currentTid).frame.spsr

-- What a run keeps beside Isolated: in the monitor nobody is running, a drop
-- carries the root of its task, and every task has one.
structure Separate (m : Machine) (owed : Nat → Owed) : Prop where
  confined : m.Confined
  contexts : ∀ tid, (m.kernel.table tid).state ≠ .exited → m.mode = .monitor ∨ tid ≠ m.kernel.currentTid →
    (m.kernel.table tid).saved = (owed tid).frame
  roots : ∀ tid, (m.kernel.table tid).state ≠ .exited → (m.kernel.table tid).ttbr0Pa = (owed tid).root
  rooted : ∀ tid, (m.kernel.table tid).state ≠ .exited → (m.kernel.table tid).ttbr0Pa ≠ 0
  space : m.mode = .el0 → m.kernel.ttbr0 = (m.kernel.table m.kernel.currentTid).ttbr0Pa
  drops : ∀ root, m.mode = .dropping root → root = (m.kernel.table m.kernel.currentTid).ttbr0Pa

namespace Separate

variable {m : Machine} {owed : Nat → Owed}

theorem isolated (separate : m.Separate owed) : m.Isolated owed :=
  ⟨fun tid live other => separate.contexts tid live (.inr other), separate.roots, separate.space⟩

theorem spawn (separate : m.Separate owed) (monitor : m.mode = .monitor) (args : Kernel.SpawnArgs) :
    Separate { m with kernel := (m.kernel.spawn args).2 } (bornEntry args owed m.kernel.allocTask.1) := by
  have away : m.mode ≠ .el0 := by
    rw [monitor]
    exact fun no => (by cases no)
  have still : ∀ root, m.mode ≠ .dropping root := fun root => by
    rw [monitor]
    exact fun no => (by cases no)
  rcases spawn_cases m.kernel args with ⟨full, same⟩ | ⟨fresh, slot, inside, _, same⟩
  · rw [same, full]
    exact separate
  · have born : bornEntry args owed (some fresh) =
        Function.update owed fresh ⟨args.initial.saved, args.ttbr0Pa, args.sp⟩ := rfl
    rw [same, slot, born]
    have table : ∀ tid, tid ≠ fresh → ((m.kernel.setTask fresh args.initial).enqueue fresh).table tid = m.kernel.table tid :=
      fun tid other => by rw [Kernel.enqueue_table, Kernel.set_task_table, Function.update_of_ne other]
    have own : ((m.kernel.setTask fresh args.initial).enqueue fresh).table fresh = args.initial := by
      rw [Kernel.enqueue_table, Kernel.set_task_table, Function.update_self]
    refine ⟨fun tid live => ?_, fun tid live idle => ?_, fun tid live => ?_, fun tid live => ?_,
      fun el0 => absurd el0 away, fun root dropping => absurd dropping (still root)⟩
    · by_cases here : tid = fresh
      · exact here ▸ inside
      · exact separate.confined tid (by rwa [table tid here] at live)
    · by_cases here : tid = fresh
      · rw [here, own, Function.update_self]
      · rw [table tid here, Function.update_of_ne here]
        exact separate.contexts tid (by rwa [table tid here] at live) (.inl monitor)
    · by_cases here : tid = fresh
      · rw [here, own, Function.update_self]
        rfl
      · rw [table tid here, Function.update_of_ne here]
        exact separate.roots tid (by rwa [table tid here] at live)
    · by_cases here : tid = fresh
      · rw [here, own]
        exact args.has_root
      · rw [table tid here]
        exact separate.rooted tid (by rwa [table tid here] at live)

theorem drop (separate : m.Separate owed) (monitor : m.mode = .monitor) (unmask : Bool) :
    (m.dropScheduled unmask).Separate owed := by
  have away : m.mode ≠ .el0 := by
    rw [monitor]
    exact fun no => (by cases no)
  rcases drop_cases m unmask with ⟨_, same⟩ | ⟨_, _, _, _, same⟩ | ⟨first, _, t, _, found, same⟩
  · rw [same]
    exact separate
  · rw [same]
    exact ⟨separate.confined, fun tid live _ => separate.contexts tid live (.inl monitor), separate.roots,
      separate.rooted, fun el0 => absurd el0 away, separate.drops⟩
  · obtain ⟨low, live, rfl⟩ := (Kernel.task_eq_some _ _ _).mp found
    rw [same]
    have table : ∀ tid, tid ≠ first → (dropped m.kernel first (m.kernel.table first)).table tid = m.kernel.table tid :=
      fun tid other => by simp [dropped, Kernel.record, Kernel.setTask, Kernel.popped, other]
    have own : (dropped m.kernel first (m.kernel.table first)).table first =
        { m.kernel.table first with state := .running } := by
      simp [dropped, Kernel.record, Kernel.setTask, Kernel.popped]
    have alive : ∀ tid, ((dropped m.kernel first (m.kernel.table first)).table tid).state ≠ .exited →
        (m.kernel.table tid).state ≠ .exited := fun tid still => by
      by_cases here : tid = first
      · exact here ▸ live
      · rwa [table tid here] at still
    have space : ∀ tid, ((dropped m.kernel first (m.kernel.table first)).table tid).ttbr0Pa =
        (m.kernel.table tid).ttbr0Pa := fun tid => by
      by_cases here : tid = first
      · rw [here, own]
      · rw [table tid here]
    refine ⟨fun tid still => separate.confined tid (alive tid still), fun tid still idle => ?_, fun tid still => ?_,
      fun tid still => ?_, fun el0 => (by cases el0), fun root dropping => ?_⟩
    · have here : tid ≠ first := idle.resolve_left (fun no => (by cases no))
      have saved := separate.contexts tid (alive tid still) (.inl monitor)
      exact (congrArg Task.saved (table tid here)).trans saved
    · exact (space tid).trans (separate.roots tid (alive tid still))
    · exact fun zero => separate.rooted tid (alive tid still) ((space tid).symm.trans zero)
    · cases dropping
      exact (space first).symm

section
variable (spaces : AddressSpaces) (address : Static → UInt64)

theorem own_entry_root (t : Trap) (tid : Nat) : (ownEntry spaces m t owed tid).root = (owed tid).root := by
  unfold ownEntry
  by_cases here : tid = m.kernel.currentTid
  · rw [here, Function.update_self]
  · rw [Function.update_of_ne here]

-- What a served exception leaves in the table is separate again, whatever the
-- handler came to.
theorem serve (separate : m.Separate owed) (t : Trap) (outcome : Outcome)
    (left : Kernel.Leaves m.kernel.currentTid m.kernel outcome.kernel)
    (onward : GoesOnward m.kernel (leaving spaces m.kernel (m.memAt t) (t.frame m.cpu.spEl1) t) outcome)
    (after : Machine) (table : after.kernel.table = outcome.kernel.table)
    (current : after.kernel.currentTid = outcome.kernel.currentTid)
    (monitor : after.mode = .monitor → (outcome.kernel.table after.kernel.currentTid).state = .exited)
    (space : after.mode = .el0 → after.kernel.ttbr0 = (after.kernel.table after.kernel.currentTid).ttbr0Pa)
    (drops : ∀ root, after.mode = .dropping root → root = (after.kernel.table after.kernel.currentTid).ttbr0Pa) :
    after.Separate (ownEntry spaces m t owed) := by
  have alive : ∀ tid, (after.kernel.table tid).state ≠ .exited → (m.kernel.table tid).state ≠ .exited := by
    intro tid still gone
    rw [table] at still
    exact still (left.ended tid gone).1
  refine ⟨fun tid still => separate.confined tid (alive tid still), fun tid still idle => ?_, fun tid still => ?_,
    fun tid still => ?_, space, drops⟩
  · have other : tid ≠ after.kernel.currentTid := by
      intro here
      rcases idle with ends | other
      · rw [table, here] at still
        exact still (monitor ends)
      · exact other here
    have was := alive tid still
    rw [table] at still ⊢
    unfold ownEntry
    by_cases here : tid = m.kernel.currentTid
    · have moved : outcome.kernel.currentTid ≠ m.kernel.currentTid := by
        intro same
        exact other (here.trans (same.symm.trans current.symm))
      rw [here, Function.update_self]
      exact (onward.behind moved).resolve_left (here ▸ still)
    · have kept : (outcome.kernel.table tid).saved = (m.kernel.table tid).saved := congrArg (·.1) (left.others tid here)
      rw [Function.update_of_ne here]
      exact kept.trans (separate.contexts tid was (.inr here))
  · rw [own_entry_root, table, left.space]
    exact separate.roots tid (alive tid still)
  · rw [table, left.space]
    exact separate.rooted tid (alive tid still)

theorem parks (separate : m.Separate owed) (el0 : m.mode = .el0) (after : Machine) (cause : ParkCause)
    (mode : after.mode = .parked cause) (kernel : after.kernel = m.kernel) : after.Separate owed := by
  have running : m.mode ≠ .monitor := by
    rw [el0]
    exact fun no => (by cases no)
  refine ⟨?_, ?_, ?_, ?_, ?_, ?_⟩
  · unfold Confined
    rw [kernel]
    exact separate.confined
  · rw [kernel, mode]
    exact fun tid live idle => separate.contexts tid live (.inr (idle.resolve_left (fun no => (by cases no))))
  · rw [kernel]
    exact separate.roots
  · rw [kernel]
    exact separate.rooted
  · rw [mode]
    exact fun no => (by cases no)
  · rw [mode]
    exact fun _ no => (by cases no)

theorem resumed_space (separate : m.Separate owed) (el0 : m.mode = .el0) (left : TrapFrame) (k : Kernel) (frame : TrapFrame)
    (leaves : Kernel.Leaves m.kernel.currentTid m.kernel k) (onward : Onward m.kernel left k frame) :
    k.ttbr0 = (k.table k.currentTid).ttbr0Pa := by
  cases onward with
  | stays same _ _ => rw [same.root, same.current, leaves.space, separate.space el0]
  | switches next _ live current _ root _ => rw [root, if_pos (separate.rooted next live), current, leaves.space]

theorem resumed_frame (separate : m.Separate owed) (t : Trap) (k : Kernel) (frame : TrapFrame)
    (onward : Onward m.kernel (leaving spaces m.kernel (m.memAt t) (t.frame m.cpu.spEl1) t) k frame)
    (dispatched : k.dispatches ≠ m.kernel.dispatches) : frame = (ownEntry spaces m t owed k.currentTid).frame := by
  cases onward with
  | stays same _ _ => exact absurd same.dispatches dispatched
  | switches next _ live current _ _ loaded =>
      rw [loaded, current]
      unfold ownEntry
      by_cases here : next = m.kernel.currentTid
      · rw [if_pos here, here, Function.update_self]
      · rw [if_neg here, Function.update_of_ne here]
        exact separate.contexts next live (.inr here)

end

end Separate

section
variable (spaces : AddressSpaces) (address : Static → UInt64) (m : Machine) (owed : Nat → Owed)

theorem owes_served (t : Trap) (after : Machine) (enabled : m.enabled (.trap t) = true) (down : m.oops = false) :
    owes spaces m (.trap t) after owed = ownEntry spaces m t owed := by
  have serves := m.serves_iff t |>.mpr ⟨enabled, down⟩
  rw [owes, if_pos serves]

theorem owes_unserved (t : Trap) (after : Machine) (idle : m.enabled (.trap t) = false ∨ m.oops = true) :
    owes spaces m (.trap t) after owed = owed := by
  have unserved := m.not_serves t idle
  rw [owes, if_neg unserved]

theorem separate_trap (separate : m.Separate owed) (t : Trap) :
    (m.next spaces address (.trap t)).Separate (owes spaces m (.trap t) (m.next spaces address (.trap t)) owed) ∧
      HandsOver spaces address (m, owed) (.trap t) := by
  have step := stepped spaces address m (.trap t)
  unfold HandsOver
  dsimp only
  generalize m.next spaces address (.trap t) = after at step
  cases step with
  | ignored disabled =>
      rw [owes_unserved spaces m owed t m (.inl disabled)]
      exact ⟨separate, fun _ _ _ dispatched => absurd rfl dispatched⟩
  | calm _ quiet => cases quiet
  | nested enabled _ _ _ raised after mode _ kernel =>
      rw [owes_unserved spaces m owed t after (.inr raised)]
      refine ⟨separate.parks (trap_el0 m t enabled) after .nested mode kernel, fun _ _ el0 => ?_⟩
      rw [mode] at el0
      cases el0
  | resumed enabled source t' taken down k mem frame outcome after resumed =>
      cases taken
      have el0 := trap_el0 m t enabled
      have left := handled_leaves spaces m (.trap t) _ t rfl
      have onward := m.handled_onward spaces separate.confined t
      rw [outcome] at left onward
      have way := onward.resumes k mem frame rfl
      rw [owes_served spaces m owed t after enabled down]
      have table : after.kernel.table = k.table := by rw [resumed.kernel]
      have current : after.kernel.currentTid = k.currentTid := by rw [resumed.kernel]
      have space : after.kernel.ttbr0 = (after.kernel.table after.kernel.currentTid).ttbr0Pa := by
        rw [resumed.kernel]
        exact separate.resumed_space el0 _ k frame left way
      refine ⟨separate.serve spaces t _ left onward after table current ?_ (fun _ => space) ?_, ?_⟩
      · rw [resumed.mode, resumeMode]
        split_ifs with _ own
        · exact fun no => (by cases no)
        · exact absurd own.1 (by decide)
        · exact fun no => (by cases no)
      · rw [resumed.mode, resumeMode, table, current]
        split_ifs with _ own
        · exact fun _ no => (by cases no)
        · exact absurd own.1 (by decide)
        · intro root same
          exact (Mode.dropping.inj same).symm
      · intro _ _ _ dispatched
        have moved : k.dispatches ≠ m.kernel.dispatches := by
          rw [resumed.kernel] at dispatched
          exact dispatched
        have loaded := separate.resumed_frame spaces t k frame way moved
        rw [current, resumed.x, resumed.pc, resumed.pstate, loaded]
        exact ⟨rfl, rfl, rfl⟩
  | returned enabled source t' taken down k outcome after returned =>
      cases taken
      have left := handled_leaves spaces m (.trap t) _ t rfl
      have onward := m.handled_onward spaces separate.confined t
      rw [outcome] at left onward
      obtain ⟨current, gone⟩ := onward.returns k rfl
      have same : after.kernel = k := returned.kernel
      have elsewhere : ∀ mode, mode ≠ .monitor → after.mode ≠ mode := by
        intro mode other here
        exact other (here.symm.trans returned.mode)
      rw [owes_served spaces m owed t after enabled down]
      refine ⟨separate.serve spaces t _ left onward after (congrArg Kernel.table same) (congrArg Kernel.currentTid same)
        ?_ (fun el0 => ?_) (fun root dropping => ?_), fun _ _ el0 => ?_⟩
      · intro _
        rw [same, current]
        exact gone
      · exact absurd el0 (elsewhere .el0 (fun no => (by cases no)))
      · exact absurd dropping (elsewhere (.dropping root) (fun no => (by cases no)))
      · exact absurd el0 (elsewhere .el0 (fun no => (by cases no)))
  | parked enabled source t' taken down cause k outcome after mode oops same =>
      cases taken
      have left := handled_leaves spaces m (.trap t) _ t rfl
      have onward := m.handled_onward spaces separate.confined t
      rw [outcome] at left onward
      have elsewhere : ∀ other, other ≠ .parked cause → after.mode ≠ other := by
        intro other apart here
        exact apart (here.symm.trans mode)
      rw [owes_served spaces m owed t after enabled down]
      refine ⟨separate.serve spaces t _ left onward after (congrArg Kernel.table same) (congrArg Kernel.currentTid same)
        (fun ends => ?_) (fun el0 => ?_) (fun root dropping => ?_), fun _ _ el0 => ?_⟩
      · exact absurd ends (elsewhere .monitor (fun no => (by cases no)))
      · exact absurd el0 (elsewhere .el0 (fun no => (by cases no)))
      · exact absurd dropping (elsewhere (.dropping root) (fun no => (by cases no)))
      · exact absurd el0 (elsewhere .el0 (fun no => (by cases no)))

theorem separate_step (separate : m.Separate owed) (event : Event) (inside : event.InSession) :
    (m.next spaces address event).Separate (owes spaces m event (m.next spaces address event) owed) ∧
      HandsOver spaces address (m, owed) event := by
  by_cases taken : ∃ t, event = .trap t
  · obtain ⟨t, rfl⟩ := taken
    exact separate_trap spaces address m owed separate t
  · refine ⟨?_, fun t same => absurd ⟨t, same⟩ taken⟩
    by_cases enabled : m.enabled event = true
    · rw [next_enabled spaces address m event enabled]
      cases event with
      | build root image code => exact ⟨separate.confined, separate.contexts, separate.roots, separate.rooted, separate.space, separate.drops⟩
      | spawn args =>
          rw [owes, if_pos enabled]
          exact separate.spawn (of_decide_eq_true enabled) args
      | arm => exact ⟨separate.confined, separate.contexts, separate.roots, separate.rooted, separate.space, separate.drops⟩
      | drop unmask => exact separate.drop (of_decide_eq_true enabled) unmask
      | dropUser root => exact absurd inside id
      | unmask => exact ⟨separate.confined, separate.contexts, separate.roots, separate.rooted, separate.space, separate.drops⟩
      | el1 t => exact absurd inside id
      | enter residue =>
          cases dropping : m.mode with
          | dropping root =>
              have running : m.mode ≠ .monitor := by
                rw [dropping]
                exact fun no => (by cases no)
              simp only [fire, dropping]
              exact ⟨separate.confined,
                fun tid live idle => separate.contexts tid live (.inr (idle.resolve_left (fun no => (by cases no)))),
                separate.roots, separate.rooted, fun _ => separate.drops root dropping, fun _ no => (by cases no)⟩
          | _ => simp [Machine.enabled, dropping] at enabled
      | trap t => exact absurd ⟨t, rfl⟩ taken
    · have untouched : owes spaces m event m owed = owed := by
        cases event with
        | spawn args => rw [owes, if_neg enabled]
        | trap t => exact absurd ⟨t, rfl⟩ taken
        | _ => rfl
      rw [next_disabled spaces address m event enabled, untouched]
      exact separate

end

theorem boot_separate (spaces : AddressSpaces) (cpu : Cpu) (owed : Nat → Owed) : (boot spaces cpu).Separate owed where
  confined := fun _ live => absurd rfl live
  contexts := fun _ live _ => absurd rfl live
  roots := fun _ live => absurd rfl live
  rooted := fun _ live => absurd rfl live
  space := fun no => (by cases no)
  drops := fun _ no => (by cases no)

-- Whatever the other tasks and the kernel do, a task that is not running keeps
-- its context and its address space, a dispatch gives them back, and EL0 runs
-- in the current task's address space.
theorem contexts_isolated (spaces : AddressSpaces) (address : Static → UInt64) (cpu : Cpu) (owed : Nat → Owed)
    (events : List Event) (session : ∀ event ∈ events, event.InSession) :
    Run.Always (Run.recorded (next spaces address) (owes spaces)) (fun pair => pair.1.Isolated pair.2)
        (boot spaces cpu, owed) events ∧
      Run.Along (Run.recorded (next spaces address) (owes spaces)) (HandsOver spaces address) (boot spaces cpu, owed)
        events := by
  have inside := Run.along_of_mem (Run.recorded (next spaces address) (owes spaces)) Event.InSession
    (boot spaces cpu, owed) events session
  have initial : (fun pair : Machine × (Nat → Owed) => pair.1.Separate pair.2) (boot spaces cpu, owed) :=
    boot_separate spaces cpu owed
  refine ⟨?_, ?_⟩
  · exact Run.always_of_invariant _ _ (fun pair => pair.1.Separate pair.2) _
      (fun pair event separate inside => (separate_step spaces address pair.1 pair.2 separate event inside).1)
      (fun _ separate => separate.isolated) _ events initial inside
  · exact Run.along_of_invariant _ _ _ (fun pair => pair.1.Separate pair.2)
      (fun pair event separate inside => separate_step spaces address pair.1 pair.2 separate event inside) _ events
      initial inside

theorem contexts_isolated_blocked_receiver :
    Run.Always (Run.recorded (next flat fun _ => 0) (owes flat)) (fun pair => pair.1.Isolated pair.2)
        (boot flat coldCpu, fun _ => ⟨.empty, 0, 0⟩) blockedReceiver ∧
      Run.Along (Run.recorded (next flat fun _ => 0) (owes flat)) (HandsOver flat fun _ => 0)
        (boot flat coldCpu, fun _ => ⟨.empty, 0, 0⟩) blockedReceiver :=
  contexts_isolated flat (fun _ => 0) coldCpu (fun _ => ⟨.empty, 0, 0⟩) blockedReceiver (by decide)

end Machine

end Opal
