import Opal.Handover

set_option autoImplicit false

namespace Opal

namespace Machine

-- What holds in every state of every run. Before a handler has re-entered the
-- monitor, its loop runs with no task current, a current task is alive, and the
-- core runs or is about to run in that task's address space.
structure Grounded (m : Machine) : Prop where
  confined : m.Confined
  rooted : ∀ tid, (m.kernel.table tid).state ≠ .exited → (m.kernel.table tid).ttbr0Pa ≠ 0
  idle : m.oops = false → m.mode = .monitor → m.kernel.currentTid = 0
  current : m.oops = false → m.kernel.currentTid ≠ 0 → (m.kernel.table m.kernel.currentTid).state ≠ .exited
  space : m.oops = false → m.kernel.currentTid ≠ 0 → m.mode = .el0 →
    m.kernel.ttbr0 = (m.kernel.table m.kernel.currentTid).ttbr0Pa
  drops : m.oops = false → m.kernel.currentTid ≠ 0 → ∀ root, m.mode = .dropping root →
    root = (m.kernel.table m.kernel.currentTid).ttbr0Pa

section
variable (spaces : AddressSpaces) (address : Static → UInt64) (m : Machine)

theorem grounded_monitor (grounded : m.Grounded) (monitor : m.mode = .monitor) (after : Machine)
    (table : ∀ tid, (after.kernel.table tid).state ≠ .exited →
      (0 < tid ∧ tid < maxTasks) ∧ (after.kernel.table tid).ttbr0Pa ≠ 0)
    (current : after.kernel.currentTid = m.kernel.currentTid) (oops : after.oops = m.oops) : after.Grounded := by
  have nobody : after.oops = false → after.kernel.currentTid = 0 := by
    rw [oops, current]
    exact fun down => grounded.idle down monitor
  exact ⟨fun tid live => (table tid live).1, fun tid live => (table tid live).2, fun down _ => nobody down,
    fun down user => absurd (nobody down) user, fun down user => absurd (nobody down) user,
    fun down user => absurd (nobody down) user⟩

theorem grounded_drop (grounded : m.Grounded) (monitor : m.mode = .monitor) (unmask : Bool) :
    (m.dropScheduled unmask).Grounded := by
  have table : ∀ tid, (m.kernel.table tid).state ≠ .exited →
      (0 < tid ∧ tid < maxTasks) ∧ (m.kernel.table tid).ttbr0Pa ≠ 0 :=
    fun tid live => ⟨grounded.confined tid live, grounded.rooted tid live⟩
  rcases drop_cases m unmask with ⟨_, same⟩ | ⟨_, _, _, _, same⟩ | ⟨first, _, t, _, found, same⟩
  · rw [same]
    exact grounded
  · rw [same]
    exact grounded_monitor m grounded monitor _ table rfl rfl
  · obtain ⟨low, live, rfl⟩ := (Kernel.task_eq_some _ _ _).mp found
    have own : (dropped m.kernel first (m.kernel.table first)).table first =
        { m.kernel.table first with state := .running } := by
      simp [dropped, Kernel.record, Kernel.setTask, Kernel.popped]
    have other : ∀ tid, tid ≠ first → (dropped m.kernel first (m.kernel.table first)).table tid = m.kernel.table tid :=
      fun tid apart => by simp [dropped, Kernel.record, Kernel.setTask, Kernel.popped, apart]
    have kept : ∀ tid, ((dropped m.kernel first (m.kernel.table first)).table tid).state ≠ .exited →
        (0 < tid ∧ tid < maxTasks) ∧ ((dropped m.kernel first (m.kernel.table first)).table tid).ttbr0Pa ≠ 0 := by
      intro tid still
      by_cases here : tid = first
      · rw [here, own]
        exact table first live
      · rw [other tid here] at still ⊢
        exact table tid still
    rw [same]
    refine ⟨fun tid still => (kept tid still).1, fun tid still => (kept tid still).2, fun _ no => (by cases no),
      fun _ _ => ?_, fun _ _ no => (by cases no), fun _ _ root dropping => ?_⟩
    · change ((dropped m.kernel first (m.kernel.table first)).table first).state ≠ .exited
      rw [own]
      exact fun no => (by cases no)
    · cases dropping
      change (m.kernel.table first).ttbr0Pa = ((dropped m.kernel first (m.kernel.table first)).table first).ttbr0Pa
      rw [own]

theorem grounded_fire (grounded : m.Grounded) (event : Event) (enabled : m.enabled event = true)
    (quiet : event.exception = none) : (m.fire spaces address event).Grounded := by
  have table : ∀ tid, (m.kernel.table tid).state ≠ .exited →
      (0 < tid ∧ tid < maxTasks) ∧ (m.kernel.table tid).ttbr0Pa ≠ 0 :=
    fun tid live => ⟨grounded.confined tid live, grounded.rooted tid live⟩
  cases event with
  | build root image code => exact grounded_monitor m grounded (of_decide_eq_true enabled) _ table rfl rfl
  | spawn args =>
      refine grounded_monitor m grounded (of_decide_eq_true enabled) _ ?_ ?_ rfl
      · intro tid live
        simp only [fire] at live ⊢
        rcases spawn_cases m.kernel args with ⟨_, same⟩ | ⟨fresh, _, inside, _, same⟩
        · rw [same] at live ⊢
          exact table tid live
        · rw [same, Kernel.enqueue_table, Kernel.set_task_table] at live ⊢
          by_cases here : tid = fresh
          · rw [here, Function.update_self]
            exact ⟨inside, args.has_root⟩
          · rw [Function.update_of_ne here] at live ⊢
            exact table tid live
      · simp only [fire]
        rcases spawn_cases m.kernel args with ⟨_, same⟩ | ⟨_, _, _, _, same⟩
        · rw [same]
        · rw [same, Kernel.enqueue_current, Kernel.set_task_current]
  | arm => exact grounded_monitor m grounded (of_decide_eq_true enabled) _ table rfl rfl
  | drop unmask => exact grounded_drop m grounded (of_decide_eq_true enabled) unmask
  | dropUser root => exact grounded_monitor m grounded (of_decide_eq_true enabled) _ table rfl rfl
  | unmask => exact grounded_monitor m grounded (of_decide_eq_true enabled) _ table rfl rfl
  | el1 t => cases quiet
  | enter residue =>
      cases dropping : m.mode with
      | dropping root =>
          simp only [fire, dropping]
          exact ⟨grounded.confined, grounded.rooted, fun _ no => (by cases no), grounded.current,
            fun down user _ => grounded.drops down user root dropping, fun _ _ _ no => (by cases no)⟩
      | _ => simp [Machine.enabled, dropping] at enabled
  | trap t => cases quiet

theorem origin_of (event : Event) (enabled : m.enabled event = true) (source : Source) (t : Trap)
    (taken : event.exception = some (source, t)) :
    (source = .currentSpElx ∧ isEl0 t.pstate = false) ∨ (source = .lowerAArch64 ∧ m.mode = .el0 ∧ isEl0 t.pstate = true) := by
  cases event with
  | el1 fault =>
      cases taken
      simp only [Machine.enabled, Bool.and_eq_true, Bool.not_eq_true'] at enabled
      exact .inl ⟨rfl, enabled.1⟩
  | trap fault =>
      cases taken
      simp only [Machine.enabled, Bool.and_eq_true, decide_eq_true_eq] at enabled
      exact .inr ⟨rfl, enabled⟩
  | _ => cases taken

theorem grounded_resumed (grounded : m.Grounded) (event : Event) (enabled : m.enabled event = true) (source : Source)
    (t : Trap) (taken : event.exception = some (source, t)) (down : m.oops = false) (k : Kernel) (mem : UserMem)
    (frame : TrapFrame) (outcome : m.handled spaces source t = .resumed k mem frame) (after : Machine)
    (resumed : Resumed m source t k mem frame after) : after.Grounded := by
  have left := handled_leaves spaces m event source t taken
  have way := (m.exception_onward spaces grounded.confined event source t taken).resumes k mem frame outcome
  rw [outcome] at left
  dsimp only [Outcome.kernel] at left
  have alive : ∀ tid, (k.table tid).state ≠ .exited → (m.kernel.table tid).state ≠ .exited :=
    fun tid live gone => live (left.ended tid gone).1
  have origin := origin_of m event enabled source t taken
  have current : k.currentTid ≠ 0 → (k.table k.currentTid).state ≠ .exited := by
    intro user
    cases way with
    | stays same spares _ =>
        rw [same.current] at user ⊢
        exact spares _ (grounded.current down user)
    | switches next _ _ goes runs _ _ =>
        rw [goes, runs]
        exact fun no => (by cases no)
  have table : after.kernel.table = k.table := by rw [resumed.kernel]
  have running : after.kernel.currentTid = k.currentTid := by rw [resumed.kernel]
  have root : after.kernel.ttbr0 = k.ttbr0 := by rw [resumed.kernel]
  refine ⟨fun tid live => ?_, fun tid live => ?_, fun _ monitor => ?_, fun _ user => ?_, fun _ user el0 => ?_,
    fun _ user root dropping => ?_⟩
  · exact grounded.confined tid (alive tid (by rwa [table] at live))
  · rw [table, left.space]
    exact grounded.rooted tid (alive tid (by rwa [table] at live))
  · rw [resumed.mode, resumeMode] at monitor
    split_ifs at monitor with _ own
    rw [running, own.2]
    exact grounded.idle down monitor
  · rw [running] at user ⊢
    rw [table]
    exact current user
  · rw [running] at user
    rw [root, table, running]
    cases way with
    | stays same _ pstate =>
        -- A kernel exception that stays put goes back to EL1.
        have before : m.mode = .el0 := by
          rcases origin with ⟨_, el1⟩ | ⟨_, before, _⟩
          · rw [left_pstate] at pstate
            rw [resumed.mode, resumeMode, pstate, el1, if_neg (fun no => (by cases no))] at el0
            split_ifs at el0
            exact el0
          · exact before
        rw [same.current] at user ⊢
        rw [same.root, left.space]
        exact grounded.space down user before
    | switches next _ live goes _ loads _ => rw [loads, if_pos (grounded.rooted next live), goes, left.space]
  · rw [running] at user
    rw [table, running]
    rw [resumed.mode, resumeMode] at dropping
    split_ifs at dropping with _ own
    · rw [own.2] at user ⊢
      rw [left.space]
      exact grounded.drops down user root dropping
    · exact (Mode.dropping.inj dropping).symm

theorem grounded_raised (grounded : m.Grounded) (k : Kernel) (left : Kernel.Leaves m.kernel.currentTid m.kernel k)
    (after : Machine) (kernel : after.kernel = k) (raised : after.oops = true) : after.Grounded := by
  have up : ¬ after.oops = false := by
    rw [raised]
    exact fun no => (by cases no)
  have alive : ∀ tid, (k.table tid).state ≠ .exited → (m.kernel.table tid).state ≠ .exited :=
    fun tid live gone => live (left.ended tid gone).1
  refine ⟨fun tid live => ?_, fun tid live => ?_, fun down => absurd down up, fun down => absurd down up,
    fun down => absurd down up, fun down => absurd down up⟩
  · exact grounded.confined tid (alive tid (by rwa [kernel] at live))
  · rw [kernel, left.space]
    exact grounded.rooted tid (alive tid (by rwa [kernel] at live))

theorem grounded_step (grounded : m.Grounded) (event : Event) : (m.next spaces address event).Grounded := by
  have step := stepped spaces address m event
  generalize m.next spaces address event = after at step
  cases step with
  | ignored _ => exact grounded
  | calm enabled quiet => exact grounded_fire spaces address m grounded event enabled quiet
  | nested _ _ _ _ _ after _ oops kernel => exact grounded_raised m grounded m.kernel (Kernel.Leaves.refl _) after kernel oops
  | resumed enabled source t taken down k mem frame outcome after resumed =>
      exact grounded_resumed spaces m grounded event enabled source t taken down k mem frame outcome after resumed
  | returned _ source t taken _ k outcome after returned =>
      have left := handled_leaves spaces m event source t taken
      rw [outcome] at left
      exact grounded_raised m grounded k left after returned.kernel returned.oops
  | parked _ source t taken _ _ k outcome after _ oops kernel =>
      have left := handled_leaves spaces m event source t taken
      rw [outcome] at left
      exact grounded_raised m grounded k left after kernel oops

end

theorem boot_grounded (spaces : AddressSpaces) (cpu : Cpu) : (boot spaces cpu).Grounded where
  confined := fun _ live => absurd rfl live
  rooted := fun _ live => absurd rfl live
  idle := fun _ _ => rfl
  current := fun _ user => absurd rfl user
  space := fun _ user => absurd rfl user
  drops := fun _ user => absurd rfl user

end Machine

end Opal
