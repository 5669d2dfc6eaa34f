import Opal.Context

set_option autoImplicit false

namespace Opal

-- Nothing is owed before the first spawn.
def nothingOwed : Nat → Owed := fun _ => ⟨.empty, 0, 0⟩

namespace Machine

-- EL0 runs on the stack pointer the current task left EL0 with, or was spawned
-- with.
def OwnStack (m : Machine) (owed : Nat → Owed) : Prop :=
  m.mode = .el0 → m.cpu.spEl0 = (owed m.kernel.currentTid).spEl0

-- The handler of this exception goes on in another task.
def SwitchesTo (spaces : AddressSpaces) (m : Machine) (t : Trap) (next : Nat) : Prop :=
  ∃ k mem frame, m.handled spaces .lowerAArch64 t = .resumed k mem frame ∧ k.currentTid = next ∧ next ≠ m.kernel.currentTid

-- The task about to run would find its own stack pointer by luck: the fixed
-- stack top at a drop, the interrupted task's stack pointer at a switch.
def StacksAgree (spaces : AddressSpaces) (pair : Machine × (Nat → Owed)) : Event → Prop
  | .enter residue => pair.1.enabled (.enter residue) = true → (pair.2 pair.1.kernel.currentTid).spEl0 = userStackTop
  | .trap t =>
      pair.1.serves t = true → ∀ next, pair.1.SwitchesTo spaces t next → (pair.2 next).spEl0 = t.spEl0
  | _ => True

section
variable (spaces : AddressSpaces) (address : Static → UInt64) (m : Machine) (owed : Nat → Owed)

theorem own_entry_el0 (t : Trap) (el0 : isEl0 t.pstate = true) (calls : ∀ tid, isEl0 (owed tid).frame.spsr = true)
    (tid : Nat) : isEl0 (ownEntry spaces m t owed tid).frame.spsr = true := by
  unfold ownEntry
  by_cases here : tid = m.kernel.currentTid
  · rw [here, Function.update_self, leaving_pstate]
    exact el0
  · rw [Function.update_of_ne here]
    exact calls tid

theorem own_entry_sp (t : Trap) (tid : Nat) :
    (ownEntry spaces m t owed tid).spEl0 = if tid = m.kernel.currentTid then t.spEl0 else (owed tid).spEl0 := by
  unfold ownEntry
  by_cases here : tid = m.kernel.currentTid
  · rw [if_pos here, here, Function.update_self]
  · rw [if_neg here, Function.update_of_ne here]

theorem owes_el0 (event : Event) (after : Machine) (calls : ∀ tid, isEl0 (owed tid).frame.spsr = true) (tid : Nat) :
    isEl0 (owes spaces m event after owed tid).frame.spsr = true := by
  cases event with
  | spawn args =>
      by_cases enabled : m.enabled (.spawn args) = true
      · rw [owes, if_pos enabled]
        cases m.kernel.allocTask.1 with
        | none => exact calls tid
        | some fresh =>
            simp only [bornEntry]
            by_cases here : tid = fresh
            · rw [here, Function.update_self]
              exact (show isEl0 0 = true by decide)
            · rw [Function.update_of_ne here]
              exact calls tid
      · rw [owes, if_neg enabled]
        exact calls tid
  | trap t =>
      by_cases serves : m.serves t = true
      · have enabled := (m.serves_iff t |>.mp serves).1
        rw [owes, if_pos serves]
        exact own_entry_el0 spaces m owed t (trap_pstate m t enabled) calls tid
      · rw [owes, if_neg serves]
        exact calls tid
  | _ => exact calls tid

-- Nothing between an exception and its eret writes SP_EL0.
theorem trap_own_stack (separate : m.Separate owed) (calls : ∀ tid, isEl0 (owed tid).frame.spsr = true) (t : Trap)
    (right : m.OwnStack owed) :
    (m.next spaces address (.trap t)).OwnStack (owes spaces m (.trap t) (m.next spaces address (.trap t)) owed) ↔
      StacksAgree spaces (m, owed) (.trap t) := by
  have step := stepped spaces address m (.trap t)
  generalize m.next spaces address (.trap t) = after at step
  cases step with
  | ignored disabled =>
      have idle := m.not_serves t (.inl disabled)
      rw [owes_unserved spaces m owed t m (.inl disabled)]
      exact ⟨fun _ serves => absurd serves idle, fun _ => right⟩
  | calm _ quiet => cases quiet
  | nested enabled _ _ _ raised after mode _ _ =>
      have idle := m.not_serves t (.inr raised)
      refine ⟨fun _ serves => absurd serves idle, fun _ el0 => ?_⟩
      rw [mode] at el0
      cases el0
  | resumed enabled source t' taken down k mem frame outcome after resumed =>
      cases taken
      have serves := m.serves_iff t |>.mpr ⟨enabled, down⟩
      have way := (m.handled_onward spaces separate.confined t).resumes k mem frame outcome
      have current : after.kernel.currentTid = k.currentTid := by rw [resumed.kernel]
      rw [owes_served spaces m owed t after enabled down]
      cases way with
      | stays same _ _ =>
          refine ⟨fun _ _ next switches => ?_, fun _ _ => ?_⟩
          · obtain ⟨k', mem', frame', result, goes, other⟩ := switches
            rw [outcome] at result
            cases result
            exact absurd (goes.symm.trans same.current) other
          · rw [resumed.spEl0, current, same.current, own_entry_sp, if_pos rfl]
      | switches next low live goes _ root loaded =>
          have called : isEl0 frame.spsr = true := by
            rw [loaded]
            by_cases here : next = m.kernel.currentTid
            · rw [if_pos here, leaving_pstate]
              exact trap_pstate m t enabled
            · rw [if_neg here, separate.contexts next live (.inr here)]
              exact calls next
          have el0 : after.mode = .el0 := by rw [resumed.mode, resumeMode, if_pos called]
          unfold OwnStack
          rw [resumed.spEl0, current, goes, own_entry_sp]
          by_cases here : next = m.kernel.currentTid
          · rw [if_pos here]
            refine ⟨fun _ _ other switches => ?_, fun _ _ => rfl⟩
            obtain ⟨k', mem', frame', result, goes', other⟩ := switches
            rw [outcome] at result
            cases result
            exact absurd (goes'.symm.trans (goes.trans here)) other
          · rw [if_neg here]
            refine ⟨fun own _ other switches => ?_, fun agree _ => ?_⟩
            · obtain ⟨k', mem', frame', result, goes', _⟩ := switches
              rw [outcome] at result
              cases result
              rw [← goes', goes]
              exact (own el0).symm
            · exact (agree serves next ⟨k, mem, frame, outcome, goes, here⟩).symm
  | returned enabled source t' taken down k outcome after returned =>
      cases taken
      refine ⟨fun _ _ next switches => ?_, fun _ el0 => ?_⟩
      · obtain ⟨k', mem', frame', result, _, _⟩ := switches
        rw [outcome] at result
        cases result
      · rw [returned.mode] at el0
        cases el0
  | parked enabled source t' taken down cause k outcome after mode _ _ =>
      cases taken
      refine ⟨fun _ _ next switches => ?_, fun _ el0 => ?_⟩
      · obtain ⟨k', mem', frame', result, _, _⟩ := switches
        rw [outcome] at result
        cases result
      · rw [mode] at el0
        cases el0

theorem step_own_stack (separate : m.Separate owed) (calls : ∀ tid, isEl0 (owed tid).frame.spsr = true) (event : Event)
    (inside : event.InSession) (right : m.OwnStack owed) :
    (m.next spaces address event).OwnStack (owes spaces m event (m.next spaces address event) owed) ↔
      StacksAgree spaces (m, owed) event := by
  have monitor_away : m.mode = .monitor → m.mode ≠ .el0 := by
    intro monitor
    rw [monitor]
    exact fun no => (by cases no)
  by_cases taken : ∃ t, event = .trap t
  · obtain ⟨t, rfl⟩ := taken
    exact trap_own_stack spaces address m owed separate calls t right
  · by_cases enabled : m.enabled event = true
    · rw [next_enabled spaces address m event enabled]
      cases event with
      | build root image code => exact ⟨fun _ => trivial, fun _ el0 => absurd el0 (monitor_away (of_decide_eq_true enabled))⟩
      | spawn args => exact ⟨fun _ => trivial, fun _ el0 => absurd el0 (monitor_away (of_decide_eq_true enabled))⟩
      | arm => exact ⟨fun _ => trivial, fun _ el0 => absurd el0 (monitor_away (of_decide_eq_true enabled))⟩
      | drop unmask =>
          have away := monitor_away (of_decide_eq_true enabled)
          refine ⟨fun _ => trivial, fun _ el0 => ?_⟩
          simp only [fire] at el0
          rcases drop_cases m unmask with ⟨_, same⟩ | ⟨_, _, _, _, same⟩ | ⟨_, _, _, _, _, same⟩
          · rw [same] at el0
            exact absurd el0 away
          · rw [same] at el0
            exact absurd el0 away
          · rw [same] at el0
            cases el0
      | dropUser root => exact absurd inside id
      | unmask => exact ⟨fun _ => trivial, fun _ el0 => absurd el0 (monitor_away (of_decide_eq_true enabled))⟩
      | el1 t => exact absurd inside id
      | enter residue =>
          cases dropping : m.mode with
          | dropping root =>
              simp only [fire, dropping]
              exact ⟨fun own _ => (own rfl).symm, fun agree _ => (agree enabled).symm⟩
          | _ => simp [Machine.enabled, dropping] at enabled
      | trap t => exact absurd ⟨t, rfl⟩ taken
    · have untouched : owes spaces m event m owed = owed := by
        cases event with
        | spawn args => rw [owes, if_neg enabled]
        | trap t => exact absurd ⟨t, rfl⟩ taken
        | _ => rfl
      rw [next_disabled spaces address m event enabled, untouched]
      refine ⟨fun _ => ?_, fun _ => right⟩
      cases event with
      | enter residue => exact fun able => absurd able enabled
      | trap t => exact absurd ⟨t, rfl⟩ taken
      | _ => trivial

end

-- SP_EL0 belongs to a task in exactly the runs in which the value that happens
-- to be in the register is that task's anyway.
theorem own_stack_iff_agree (spaces : AddressSpaces) (address : Static → UInt64) (cpu : Cpu) (events : List Event)
    (session : ∀ event ∈ events, event.InSession) :
    Run.Always (Run.recorded (next spaces address) (owes spaces)) (fun pair => pair.1.OwnStack pair.2)
        (boot spaces cpu, nothingOwed) events ↔
      Run.Along (Run.recorded (next spaces address) (owes spaces)) (StacksAgree spaces) (boot spaces cpu, nothingOwed)
        events := by
  refine Run.always_iff_along (Run.recorded (next spaces address) (owes spaces)) (fun _ event => event.InSession) _
    (fun pair => pair.1.Separate pair.2 ∧ ∀ tid, isEl0 (pair.2 tid).frame.spsr = true) _ ?_ ?_ _ events ?_ ?_ ?_
  · intro pair event inv inside _ _
    exact ⟨(separate_step spaces address pair.1 pair.2 inv.1 event inside).1, owes_el0 spaces pair.1 pair.2 event (pair.1.next spaces address event) inv.2⟩
  · intro pair event inv inside right
    exact step_own_stack spaces address pair.1 pair.2 inv.1 inv.2 event inside right
  · exact ⟨boot_separate spaces cpu nothingOwed, fun _ => (show isEl0 0 = true by decide)⟩
  · exact fun no => (by cases no)
  · exact Run.along_of_mem _ _ _ _ session

-- Task 1 moves its stack pointer and yields to task 2, which has never run.
def movedStack : List Event :=
  [ .spawnAt 1 one_root, .spawnAt 2 two_root, .drop false, .enter fun _ => 0,
    .trap { Trap.svc (registers sysYield []) userCodeVa with spEl0 := userStackTop - 16 } ]

theorem own_stack_moved_stack :
    Run.Always (Run.recorded (next flat fun _ => 0) (owes flat)) (fun pair => pair.1.OwnStack pair.2)
        (boot flat coldCpu, nothingOwed) movedStack ↔
      Run.Along (Run.recorded (next flat fun _ => 0) (owes flat)) (StacksAgree flat) (boot flat coldCpu, nothingOwed)
        movedStack :=
  own_stack_iff_agree flat (fun _ => 0) coldCpu movedStack (by decide)

theorem fresh_task_on_moved_stack :
    ((Run.exec (next flat fun _ => 0) (boot flat coldCpu) movedStack).mode = .el0 ∧
        (Run.exec (next flat fun _ => 0) (boot flat coldCpu) movedStack).kernel.currentTid = 2 ∧
        (Run.exec (next flat fun _ => 0) (boot flat coldCpu) movedStack).cpu.spEl0 = userStackTop - 16) ∧
      ¬ Run.Always (Run.recorded (next flat fun _ => 0) (owes flat)) (fun pair => pair.1.OwnStack pair.2)
        (boot flat coldCpu, nothingOwed) movedStack := by
  refine ⟨by decide +kernel, fun all => ?_⟩
  have own := Run.always_last _ _ _ _ all (by decide +kernel)
  exact absurd own (by decide +kernel)

end Machine

end Opal
