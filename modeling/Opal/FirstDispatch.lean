import Opal.Ending

set_option autoImplicit false

namespace Opal

-- A task that spawn made and that nothing has run or changed since, next in
-- line.
structure Kernel.Fresh (k : Kernel) (args : Kernel.SpawnArgs) (tid : Nat) : Prop where
  first : ∃ rest, k.ready = tid :: rest
  task : k.task tid = some args.initial

theorem Kernel.Fresh.switch {k : Kernel} {args : Kernel.SpawnArgs} {tid : Nat} (frame : TrapFrame)
    (fresh : (k.saveCurrent frame).Fresh args tid) :
    k.saveAndSwitch frame = (true, (k.saveCurrent frame).popped.dispatch tid args.initial, args.initial.saved) := by
  obtain ⟨rest, waiting⟩ := fresh.first
  exact Kernel.switch_found (k.saveCurrent frame) frame tid rest args.initial waiting fresh.task

namespace Machine

inductive Switching (m : Machine) (t : Trap) : Kernel → Prop where
  | yields (call : isSvc t = true) (nr : t.x 8 = sysYield) (user : m.kernel.currentTid ≠ 0) : Switching m t m.kernel
  | ticks (timer : isTick t = true) (preempts : (onTick m.kernel).wakeSleepers.preempt = true)
      (user : (onTick m.kernel).wakeSleepers.currentTid ≠ 0) : Switching m t (onTick m.kernel).wakeSleepers
  | exits (call : isSvc t = true) (nr : t.x 8 = sysExit ∨ t.x 8 = sysExitCode) (user : m.kernel.currentTid ≠ 0) :
      Switching m t (m.kernel.afterExit (t.x 0).toInt64)

-- Two cores at the first instruction of a task look the same to it, hold
-- nothing of the kernel's or of another task's, and will take exceptions on
-- its own kernel stack.
structure StartsAlike (args : Kernel.SpawnArgs) (a b : Machine) : Prop where
  x : a.cpu.x = b.cpu.x
  unseen : ∀ i, a.cpu.x i = 0
  pc : a.cpu.pc = b.cpu.pc
  pstate : a.cpu.pstate = b.cpu.pstate
  spEl0 : a.cpu.spEl0 = b.cpu.spEl0
  ttbr0 : a.kernel.ttbr0 = b.kernel.ttbr0
  kstack : a.cpu.spEl1 = args.kstackTop ∧ b.cpu.spEl1 = args.kstackTop

-- What the drop has fixed or leaves over, and what a switch leaves over,
-- happens to be the task's own.
def Coincides (args : Kernel.SpawnArgs) (m : Machine) (residue : Fin 31 → UInt64) (m' : Machine) (t : Trap) : Prop :=
  args.entry = userCodeVa ∧ (∀ i : Fin 31, 19 ≤ i.val → residue i = 0) ∧ m.cpu.spEl1 = args.kstackTop ∧
    t.spEl0 = userStackTop ∧ (args.kstackTop = 0 → m'.cpu.spEl1 = 0)

section
variable (spaces : AddressSpaces) (address : Static → UInt64) {args : Kernel.SpawnArgs} {tid : Nat}

theorem switching_outcome {m : Machine} {t : Trap} {k : Kernel} (switching : m.Switching t k)
    (switched : (k.saveAndSwitch (t.frame m.cpu.spEl1)).1 = true) :
    ∃ k', m.handled spaces .lowerAArch64 t = .resumed k' (m.memAt t) (k.saveAndSwitch (t.frame m.cpu.spEl1)).2.2 ∧
      k'.ttbr0 = (k.saveAndSwitch (t.frame m.cpu.spEl1)).2.1.ttbr0 ∧
      k'.pendingKstackSp = (k.saveAndSwitch (t.frame m.cpu.spEl1)).2.1.pendingKstackSp := by
  cases switching with
  | yields call nr user =>
      refine ⟨_, ?_, rfl, rfl⟩
      have number : (t.frame m.cpu.spEl1).x 8 = sysYield := nr
      rw [handled_svc spaces m t call, handleSvcFromEl0]
      rw [number, if_neg (by decide), if_pos rfl, svcYield]
      rw [if_pos user, if_pos switched]
  | exits call nr user =>
      refine ⟨_, ?_, rfl, rfl⟩
      have number : (t.frame m.cpu.spEl1).x 8 = sysExit ∨ (t.frame m.cpu.spEl1).x 8 = sysExitCode := nr
      have exit : handleSvcFromEl0 spaces m.kernel (m.memAt t) (t.frame m.cpu.spEl1) =
          svcExit spaces m.kernel (m.memAt t) (t.frame m.cpu.spEl1) := by
        rw [handleSvcFromEl0]
        rcases number with same | same
        · rw [same]
          rfl
        · rw [same]
          rfl
      rw [handled_svc spaces m t call, exit, svcExit, if_pos user]
      exact if_pos switched
  | ticks timer preempts user =>
      let k₁ := ((onTick m.kernel).wakeSleepers.saveAndSwitch (t.frame m.cpu.spEl1)).2.1
      refine ⟨{ k₁ with preempts := k₁.preempts + 1 }, ?_, rfl, rfl⟩
      rw [m.handled_tick spaces (.trap t) .lowerAArch64 t rfl timer, serviceTick]
      exact (if_pos ⟨preempts, user⟩).trans (if_pos switched)

-- The stub leaves the core on the stack the dispatcher asked for, or on the
-- one the exception came in on.
theorem deliver_sp_el1 {m : Machine} {t : Trap} {source : Source} {mem mem' : UserMem} {k : Kernel} {frame : TrapFrame}
    (down : m.oops = false)
    (outcome : handle spaces m.kernel mem (t.frame m.cpu.spEl1) t.kind source t.device = .resumed k mem' frame) :
    (m.deliver spaces address source mem t).cpu.spEl1 =
      if k.pendingKstackSp = 0 then m.cpu.spEl1 else k.pendingKstackSp := by
  have result : dispatched spaces m source mem t = (false, .resumed k mem' frame) := by
    rw [dispatched_normally spaces m source mem t down, outcome]
  have seen := (dispatch_arguments spaces address m source mem t).trans result
  have pushed : (m.entered address source t).cpu.spEl1 = m.cpu.spEl1 - 288 := vector_entry_sp address _ _ _
  obtain ⟨_, _, sp, _⟩ := vectors_restore_core address
    { m.entered address source t with
      cpu := { (m.entered address source t).cpu with
        stack := putFrame (m.entered address source t).cpu.stack (m.entered address source t).cpu.spEl1 frame }
      pending := k.pendingKstackSp }
  simp only [deliver, seen]
  refine sp.trans ?_
  rw [pushed, UInt64.sub_add_cancel]

theorem switched_in {m : Machine} {t : Trap} {k : Kernel} (enabled : m.enabled (.trap t) = true) (down : m.oops = false)
    (switching : m.Switching t k) (fresh : (k.saveCurrent (t.frame m.cpu.spEl1)).Fresh args tid) :
    let after := m.next spaces address (.trap t)
    after.cpu.x = (fun _ => 0) ∧ after.cpu.pc = args.entry ∧ after.cpu.pstate = 0 ∧ after.cpu.spEl0 = t.spEl0 ∧
      after.kernel.ttbr0 = args.ttbr0Pa ∧
      after.cpu.spEl1 = if args.kstackTop = 0 then m.cpu.spEl1 else args.kstackTop := by
  intro after
  have switch := fresh.switch (t.frame m.cpu.spEl1)
  obtain ⟨k', outcome, root, pending⟩ := switching_outcome spaces switching (by rw [switch])
  rw [switch] at outcome root pending
  have step : after = m.deliver spaces address .lowerAArch64 (m.memAt t) t := next_enabled spaces address m _ enabled
  have resumed := deliver_resumed spaces address m .lowerAArch64 (m.memAt t) t down _ _ _ outcome
  have sp : (m.deliver spaces address .lowerAArch64 (m.memAt t) t).cpu.spEl1 =
      if k'.pendingKstackSp = 0 then m.cpu.spEl1 else k'.pendingKstackSp := deliver_sp_el1 spaces address down outcome
  rw [← step] at resumed sp
  refine ⟨resumed.x, resumed.pc, resumed.pstate, resumed.spEl0, ?_, ?_⟩
  · rw [resumed.kernel]
    exact root.trans (if_pos args.has_root)
  · rw [sp, pending]
    rfl

theorem dropped_in {m : Machine} (unmask : Bool) (residue : Fin 31 → UInt64) (monitor : m.mode = .monitor)
    (fresh : m.kernel.Fresh args tid) :
    let after := Run.exec (next spaces address) m [.drop unmask, .enter residue]
    after.cpu.x = (fun i => if i.val < 19 then 0 else residue i) ∧ after.cpu.pc = userCodeVa ∧ after.cpu.pstate = 0 ∧
      after.cpu.spEl0 = userStackTop ∧ after.kernel.ttbr0 = args.ttbr0Pa ∧ after.cpu.spEl1 = m.cpu.spEl1 := by
  intro after
  obtain ⟨rest, waiting⟩ := fresh.first
  have drop : m.dropScheduled unmask =
      { m with
        kernel := dropped m.kernel tid args.initial
        irqMasked := if unmask then false else m.irqMasked
        mode := .dropping args.ttbr0Pa } := by
    rcases drop_cases m unmask with ⟨nobody, _⟩ | ⟨first, _, head, gone, _⟩ | ⟨first, _, t, head, found, same⟩
    · rw [waiting] at nobody
      cases nobody
    · rw [waiting] at head
      cases head
      rw [fresh.task] at gone
      cases gone
    · rw [waiting] at head
      cases head
      rw [fresh.task] at found
      cases found
      exact same
  have first : m.next spaces address (.drop unmask) = m.dropScheduled unmask :=
    next_enabled spaces address m _ (decide_eq_true monitor)
  have run : after = (m.dropScheduled unmask).next spaces address (.enter residue) := by
    rw [← first]
    rfl
  rw [run, drop]
  exact ⟨rfl, rfl, rfl, rfl, rfl, rfl⟩

end

-- A task starts alike on the two ways in exactly where what they leave over
-- is by chance what the task was spawned with.
theorem first_dispatch_iff (spaces : AddressSpaces) (address : Static → UInt64) (args : Kernel.SpawnArgs) (tid tid' : Nat)
    (m : Machine) (unmask : Bool) (residue : Fin 31 → UInt64) (monitor : m.mode = .monitor)
    (fresh : m.kernel.Fresh args tid) (m' : Machine) (t : Trap) (k : Kernel) (enabled : m'.enabled (.trap t) = true)
    (down : m'.oops = false) (switching : m'.Switching t k)
    (fresh' : (k.saveCurrent (t.frame m'.cpu.spEl1)).Fresh args tid') :
    StartsAlike args (Run.exec (next spaces address) m [.drop unmask, .enter residue]) (m'.next spaces address (.trap t)) ↔
      Coincides args m residue m' t := by
  obtain ⟨x, pc, pstate, spEl0, root, sp⟩ := dropped_in spaces address unmask residue monitor fresh
  obtain ⟨x', pc', pstate', spEl0', root', sp'⟩ := switched_in spaces address enabled down switching fresh'
  constructor
  · intro alike
    refine ⟨?_, fun i high => ?_, ?_, ?_, fun nobody => ?_⟩
    · rw [← pc', ← alike.pc, pc]
    · have zero := alike.unseen i
      rw [x] at zero
      exact (if_neg (Nat.not_lt.mpr high)).symm.trans zero
    · rw [← sp]
      exact alike.kstack.1
    · rw [← spEl0', ← alike.spEl0, spEl0]
    · have own := alike.kstack.2
      rw [sp', if_pos nobody] at own
      rw [own, nobody]
  · rintro ⟨entry, zero, boot, top, own⟩
    have unseen : ∀ i : Fin 31, (if i.val < 19 then 0 else residue i) = 0 := by
      intro i
      by_cases low : i.val < 19
      · rw [if_pos low]
      · rw [if_neg low, zero i (Nat.not_lt.mp low)]
    have kstack : (if args.kstackTop = 0 then m'.cpu.spEl1 else args.kstackTop) = args.kstackTop := by
      by_cases nobody : args.kstackTop = 0
      · rw [if_pos nobody, own nobody, nobody]
      · rw [if_neg nobody]
    exact
      { x := by rw [x, x']; exact funext unseen
        unseen := fun i => by rw [x]; exact unseen i
        pc := by rw [pc, pc', entry]
        pstate := by rw [pstate, pstate']
        spEl0 := by rw [spEl0, spEl0', top]
        ttbr0 := by rw [root, root']
        kstack := ⟨by rw [sp, boot], by rw [sp', kstack]⟩ }

-- A task with a kernel stack of its own, alone in the queue of the monitor,
-- and next in line to a task at EL0 that yields.
def newcomer : Kernel.SpawnArgs := ⟨[], 2, 0x18000, userCodeVa, userStackTop, two_root⟩

def beforeDrop : Machine := Run.exec (next flat fun _ => 0) (boot flat coldCpu) [.spawn newcomer]

def beforeSwitch : Machine :=
  Run.exec (next flat fun _ => 0) (boot flat coldCpu) [.spawnAt 1 one_root, .spawn newcomer, .drop false, .enter fun _ => 0]

def yields : Trap := Trap.svc (registers sysYield []) userCodeVa

theorem before_drop_fresh : beforeDrop.kernel.Fresh newcomer 1 := ⟨⟨[], by decide +kernel⟩, rfl⟩

theorem before_switch_fresh : (beforeSwitch.kernel.saveCurrent (yields.frame beforeSwitch.cpu.spEl1)).Fresh newcomer 2 :=
  ⟨⟨[1], by decide +kernel⟩, rfl⟩

theorem before_switch_yields : beforeSwitch.Switching yields beforeSwitch.kernel :=
  .yields (by decide) (by decide) (by decide +kernel)

theorem first_dispatch_newcomer :
    StartsAlike newcomer (Run.exec (next flat fun _ => 0) beforeDrop [.drop false, .enter fun _ => 7])
        (beforeSwitch.next flat (fun _ => 0) (.trap yields)) ↔
      Coincides newcomer beforeDrop (fun _ => 7) beforeSwitch yields :=
  first_dispatch_iff flat (fun _ => 0) newcomer 1 2 beforeDrop false (fun _ => 7) (by decide +kernel) before_drop_fresh
    beforeSwitch yields beforeSwitch.kernel (by decide +kernel) (by decide +kernel) before_switch_yields
    before_switch_fresh

theorem newcomer_sees_monitor :
    beforeDrop.mode = .monitor ∧ beforeDrop.kernel.Fresh newcomer 1 ∧ beforeSwitch.enabled (.trap yields) = true ∧
      beforeSwitch.oops = false ∧ beforeSwitch.Switching yields beforeSwitch.kernel ∧
      (beforeSwitch.kernel.saveCurrent (yields.frame beforeSwitch.cpu.spEl1)).Fresh newcomer 2 ∧
      ¬ StartsAlike newcomer (Run.exec (next flat fun _ => 0) beforeDrop [.drop false, .enter fun _ => 7])
        (beforeSwitch.next flat (fun _ => 0) (.trap yields)) := by
  refine ⟨by decide +kernel, before_drop_fresh, by decide +kernel, by decide +kernel, before_switch_yields,
    before_switch_fresh, fun alike => ?_⟩
  have seen := alike.unseen 19
  exact absurd seen (by decide +kernel)

end Machine

end Opal
