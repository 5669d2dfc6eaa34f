import Opal.Context
import Opal.Solo

set_option autoImplicit false

namespace Opal

-- Where the program stood when the exception was taken.
def Trap.view (t : Trap) : View := ⟨t.x, if isSvc t then t.pc - 4 else t.pc, t.pstate, t.spEl0, t.space⟩

-- The view a task had at its first instruction, and the views from which it has
-- made its calls since.
structure Diary where
  start : Option View
  asked : List View

namespace Machine

-- A task's view stands on the core or in its slot. SP_EL0 is shared: a task that
-- is not on the core finds what its session's drop has set.
def view (m : Machine) (tid : Nat) : View :=
  if m.mode = .el0 ∧ tid = m.kernel.currentTid then
    ⟨m.cpu.x, m.cpu.pc, m.cpu.pstate, m.cpu.spEl0, m.mem (m.kernel.table tid).ttbr0Pa⟩
  else (m.kernel.table tid).saved.view userStackTop (m.mem (m.kernel.table tid).ttbr0Pa)

-- Whose view that is. A drop has still to set its task's registers, and a
-- parked core runs nobody any more.
def Keeps (m : Machine) (tid : Nat) : Prop :=
  match m.mode with
  | .monitor | .el0 => True
  | .dropping _ => tid ≠ m.kernel.currentTid
  | .parked _ => False

variable (isa : Transcript.Player View)

-- The exception comes from the current task's program, run from where it stood,
-- with SP_EL0 where the drop has put it.
structure Executes (m : Machine) (t : Trap) : Prop where
  plays : isa.Plays (m.view m.kernel.currentTid) t.view
  asks : isSvc t = true → isa.asks t.view = true
  level : t.spEl0 = userStackTop

-- No space is built or given away that a live task has, and EL0 executes the
-- current task's program.
def Unshared (m : Machine) : Event → Prop
  | .build root _ _ => ∀ tid, (m.kernel.table tid).state ≠ .exited → (m.kernel.table tid).ttbr0Pa ≠ root
  | .spawn args => ∀ tid, (m.kernel.table tid).state ≠ .exited → (m.kernel.table tid).ttbr0Pa ≠ args.ttbr0Pa
  | .trap t => m.enabled (.trap t) = true → m.Executes isa t
  | _ => True

-- A spawn and an enter open a diary, and each svc adds to it.
def notes (m : Machine) (event : Event) (after : Machine) (diary : Nat → Diary) : Nat → Diary :=
  match event with
  | .spawn args =>
      match if m.enabled (.spawn args) then m.kernel.allocTask.1 else none with
      | none => diary
      | some fresh => Function.update diary fresh ⟨some (after.view fresh), []⟩
  | .enter residue =>
      if m.enabled (.enter residue) then
        Function.update diary after.kernel.currentTid ⟨some (after.view after.kernel.currentTid), []⟩
      else diary
  | .trap t =>
      if m.serves t = true ∧ isSvc t = true then
        Function.update diary m.kernel.currentTid
          { diary m.kernel.currentTid with asked := (diary m.kernel.currentTid).asked ++ [t.view] }
      else diary
  | _ => diary

-- Every diary is the transcript of a game played alone, and every live task
-- stands where its game stands.
structure Solo (m : Machine) (diary : Nat → Diary) : Prop where
  apart : ∀ a b, (m.kernel.table a).state ≠ .exited → (m.kernel.table b).state ≠ .exited →
    (m.kernel.table a).ttbr0Pa = (m.kernel.table b).ttbr0Pa → a = b
  busy : m.mode = .el0 ∨ (∃ root, m.mode = .dropping root) → m.kernel.currentTid ≠ 0
  level : m.mode = .el0 → m.cpu.spEl0 = userStackTop
  wrote : ∀ tid start, (diary tid).start = some start → Transcript.Writes isa Reply start (diary tid).asked
  stands : ∀ tid, (m.kernel.table tid).state ≠ .exited → m.Keeps tid →
    ∃ start, (diary tid).start = some start ∧ Transcript.Reaches isa Reply ⟨[], start⟩ ⟨(diary tid).asked, m.view tid⟩

theorem view_saved (m : Machine) (tid : Nat) (away : m.mode = .el0 → tid ≠ m.kernel.currentTid) :
    m.view tid = (m.kernel.table tid).saved.view userStackTop (m.mem (m.kernel.table tid).ttbr0Pa) :=
  if_neg fun both => away both.1 both.2

theorem view_core (m : Machine) (el0 : m.mode = .el0) :
    m.view m.kernel.currentTid =
      ⟨m.cpu.x, m.cpu.pc, m.cpu.pstate, m.cpu.spEl0, m.mem (m.kernel.table m.kernel.currentTid).ttbr0Pa⟩ := if_pos ⟨el0, rfl⟩

theorem keeps_el0 (m : Machine) (tid : Nat) (el0 : m.mode = .el0) : m.Keeps tid := by
  rw [Keeps, el0]
  trivial

theorem keeps_monitor (m : Machine) (tid : Nat) (monitor : m.mode = .monitor) : m.Keeps tid := by
  rw [Keeps, monitor]
  trivial

theorem parked_keeps (m : Machine) (tid : Nat) (cause : ParkCause) (parked : m.mode = .parked cause) : ¬ m.Keeps tid := by
  rw [Keeps, parked]
  exact id

namespace Solo

variable {isa} {m : Machine} {diary : Nat → Diary}

theorem unmoved (solo : m.Solo isa diary) (after : Machine)
    (table : ∀ tid, (after.kernel.table tid).state ≠ .exited →
      (m.kernel.table tid).state ≠ .exited ∧ (after.kernel.table tid).ttbr0Pa = (m.kernel.table tid).ttbr0Pa)
    (busy : after.mode = .el0 ∨ (∃ root, after.mode = .dropping root) → after.kernel.currentTid ≠ 0)
    (level : after.mode = .el0 → after.cpu.spEl0 = userStackTop)
    (keeps : ∀ tid, (after.kernel.table tid).state ≠ .exited → after.Keeps tid → m.Keeps tid ∧ after.view tid = m.view tid) :
    after.Solo isa diary where
  apart := fun a b first second same => by
    obtain ⟨first', rootA⟩ := table a first
    obtain ⟨second', rootB⟩ := table b second
    exact solo.apart a b first' second' (rootA.symm.trans (same.trans rootB))
  busy := busy
  level := level
  wrote := solo.wrote
  stands := fun tid live keeps' => by
    obtain ⟨before, same⟩ := keeps tid live keeps'
    rw [same]
    exact solo.stands tid (table tid live).1 before

theorem monitor_busy (monitor : m.mode = .monitor) (current : Nat) :
    m.mode = .el0 ∨ (∃ root, m.mode = .dropping root) → current ≠ 0 := by
  rw [monitor]
  rintro (no | ⟨_, no⟩)
  · cases no
  · cases no

theorem monitor_level (monitor : m.mode = .monitor) (sp : UInt64) : m.mode = .el0 → sp = userStackTop :=
  fun el0 => absurd (monitor.symm.trans el0) (fun no => (by cases no))

theorem build (solo : m.Solo isa diary) (monitor : m.mode = .monitor) (root : UInt64) (image : Nat → UInt8)
    (code : UInt64 → Bool) (apart : ∀ tid, (m.kernel.table tid).state ≠ .exited → (m.kernel.table tid).ttbr0Pa ≠ root) :
    (m.build root image code).Solo isa diary := by
  refine solo.unmoved (m.build root image code) (fun tid live => ⟨live, rfl⟩) (monitor_busy monitor _)
    (monitor_level monitor _) fun tid live _ => ?_
  refine ⟨keeps_monitor m tid monitor, ?_⟩
  have away : m.mode = .el0 → tid ≠ m.kernel.currentTid := fun no => absurd (monitor.symm.trans no) (fun no => (by cases no))
  rw [view_saved m tid away, view_saved (m.build root image code) tid away]
  change (m.kernel.table tid).saved.view userStackTop (Function.update m.mem root image (m.kernel.table tid).ttbr0Pa) = _
  rw [Function.update_of_ne (apart tid live)]

theorem spawn (solo : m.Solo isa diary) (monitor : m.mode = .monitor) (args : Kernel.SpawnArgs)
    (apart : ∀ tid, (m.kernel.table tid).state ≠ .exited → (m.kernel.table tid).ttbr0Pa ≠ args.ttbr0Pa) :
    let after : Machine := { m with kernel := (m.kernel.spawn args).2 }
    after.Solo isa
      (match m.kernel.allocTask.1 with
      | none => diary
      | some fresh => Function.update diary fresh ⟨some (after.view fresh), []⟩) := by
  intro after
  have away : ∀ tid, m.mode = .el0 → tid ≠ m.kernel.currentTid :=
    fun tid no => absurd (monitor.symm.trans no) (fun no => (by cases no))
  rcases spawn_cases m.kernel args with ⟨full, same⟩ | ⟨fresh, slot, inside, _, same⟩
  · have still : after = m := congrArg (fun k => { m with kernel := k }) same
    rw [full, still]
    exact solo
  · rw [slot]
    dsimp only
    have table : ∀ tid, tid ≠ fresh → after.kernel.table tid = m.kernel.table tid := fun tid other => by
      change (m.kernel.spawn args).2.table tid = _
      rw [same, Kernel.enqueue_table, Kernel.set_task_table, Function.update_of_ne other]
    have own : after.kernel.table fresh = args.initial := by
      change (m.kernel.spawn args).2.table fresh = _
      rw [same, Kernel.enqueue_table, Kernel.set_task_table, Function.update_self]
    have root : (after.kernel.table fresh).ttbr0Pa = args.ttbr0Pa := by
      rw [own]
      rfl
    have others : ∀ tid, tid ≠ fresh → after.view tid = m.view tid := fun tid other => by
      have idle : after.mode = .el0 → tid ≠ after.kernel.currentTid :=
        fun no => absurd (monitor.symm.trans no) (fun no => (by cases no))
      rw [view_saved after tid idle, view_saved m tid (away tid), table tid other]
    refine ⟨fun a b first second equal => ?_, monitor_busy monitor _, monitor_level monitor _, fun tid start opened => ?_,
      fun tid live _ => ?_⟩
    · by_cases hereA : a = fresh
      · by_cases hereB : b = fresh
        · rw [hereA, hereB]
        · rw [hereA, root, table b hereB] at equal
          rw [table b hereB] at second
          exact absurd equal.symm (apart b second)
      · by_cases hereB : b = fresh
        · rw [hereB, root, table a hereA] at equal
          rw [table a hereA] at first
          exact absurd equal (apart a first)
        · rw [table a hereA, table b hereB] at equal
          rw [table a hereA] at first
          rw [table b hereB] at second
          exact solo.apart a b first second equal
    · by_cases here : tid = fresh
      · rw [here, Function.update_self]
        exact Transcript.writes_nothing start
      · rw [Function.update_of_ne here] at opened ⊢
        exact solo.wrote tid start opened
    · by_cases here : tid = fresh
      · rw [here, Function.update_self]
        exact ⟨_, rfl, .refl⟩
      · rw [Function.update_of_ne here, others tid here]
        rw [table tid here] at live
        exact solo.stands tid live (keeps_monitor m tid monitor)

theorem drop (solo : m.Solo isa diary) (confined : m.Confined) (monitor : m.mode = .monitor) (unmask : Bool) :
    (m.dropScheduled unmask).Solo isa diary := by
  have away : ∀ tid, m.mode = .el0 → tid ≠ m.kernel.currentTid :=
    fun tid no => absurd (monitor.symm.trans no) (fun no => (by cases no))
  rcases drop_cases m unmask with ⟨_, same⟩ | ⟨_, _, _, _, same⟩ | ⟨first, _, t, _, found, same⟩
  · rw [same]
    exact solo
  · rw [same]
    refine solo.unmoved _ (fun tid live => ⟨live, rfl⟩) (monitor_busy monitor _) (monitor_level monitor _) fun tid live _ => ?_
    exact ⟨keeps_monitor m tid monitor, (view_saved _ tid (away tid)).trans (view_saved m tid (away tid)).symm⟩
  · obtain ⟨low, live, rfl⟩ := (Kernel.task_eq_some _ _ _).mp found
    rw [same]
    have table : ∀ tid, tid ≠ first → (dropped m.kernel first (m.kernel.table first)).table tid = m.kernel.table tid :=
      fun tid other => by simp [dropped, Kernel.record, Kernel.setTask, Kernel.popped, other]
    have own : (dropped m.kernel first (m.kernel.table first)).table first =
        { m.kernel.table first with state := .running } := by
      simp [dropped, Kernel.record, Kernel.setTask, Kernel.popped]
    have space : ∀ tid, ((dropped m.kernel first (m.kernel.table first)).table tid).ttbr0Pa = (m.kernel.table tid).ttbr0Pa := by
      intro tid
      by_cases here : tid = first
      · rw [here, own]
      · rw [table tid here]
    refine solo.unmoved _ (fun tid still => ⟨?_, space tid⟩) (fun _ => Nat.ne_of_gt (confined first live).1)
      (fun no => (by cases no)) fun tid still keeps => ?_
    · by_cases here : tid = first
      · rw [here]
        exact live
      · exact fun gone => still ((congrArg Task.state (table tid here)).trans gone)
    · have other : tid ≠ first := keeps
      refine ⟨keeps_monitor m tid monitor, ?_⟩
      rw [view_saved m tid (away tid), view_saved _ tid (fun no => (by cases no))]
      exact congrArg (fun t : Task => t.saved.view userStackTop (m.mem t.ttbr0Pa)) (table tid other)

theorem enter (solo : m.Solo isa diary) (root : UInt64) (dropping : m.mode = .dropping root) (residue : Fin 31 → UInt64) :
    (m.enter root residue).Solo isa
      (Function.update diary m.kernel.currentTid ⟨some ((m.enter root residue).view m.kernel.currentTid), []⟩) where
  apart := solo.apart
  busy := fun _ => solo.busy (.inr ⟨root, dropping⟩)
  level := fun _ => rfl
  wrote := fun tid start opened => by
    by_cases here : tid = m.kernel.currentTid
    · rw [here, Function.update_self]
      exact Transcript.writes_nothing start
    · rw [Function.update_of_ne here] at opened ⊢
      exact solo.wrote tid start opened
  stands := fun tid live _ => by
    by_cases here : tid = m.kernel.currentTid
    · rw [here, Function.update_self]
      exact ⟨_, rfl, .refl⟩
    · have kept : m.Keeps tid := by
        rw [Keeps, dropping]
        exact here
      have same : (m.enter root residue).view tid = m.view tid :=
        (view_saved (m.enter root residue) tid fun _ => here).trans (view_saved m tid fun _ => here).symm
      rw [Function.update_of_ne here, same]
      exact solo.stands tid live kept

section
variable (spaces : AddressSpaces)

-- What an exception asks of the game: its answer, or nothing at all.
def goal (t : Trap) : View → Prop := fun after => if isSvc t = true then Reply t.view after else after = t.view

def written (t : Trap) (asked : List View) : List View := if isSvc t = true then asked ++ [t.view] else asked

theorem trap_goes_on (t : Trap) (user : 0 < m.kernel.currentTid ∧ m.kernel.currentTid < maxTasks)
    (live : (m.kernel.table m.kernel.currentTid).state ≠ .exited) (k' : Kernel) (mem' : UserMem) (frame' : TrapFrame)
    (outcome : m.handled spaces .lowerAArch64 t = .resumed k' mem' frame') :
    Resumes (goal t) m.kernel (m.memAt t) t.spEl0 (leaving spaces m.kernel (m.memAt t) (t.frame m.cpu.spEl1) t) k' mem' frame' := by
  have space : m.memAt t m.kernel.ttbr0 = t.space := Function.update_self ..
  by_cases call : isSvc t = true
  · have stood : called m.kernel (m.memAt t) t.spEl0 (t.frame m.cpu.spEl1) = t.view := by
      simp only [called, Trap.view, Trap.frame, call, if_true, space]
    have asks : goal t = Reply (called m.kernel (m.memAt t) t.spEl0 (t.frame m.cpu.spEl1)) := by
      funext after
      simp only [goal, call, if_true, stood]
    rw [handled_svc spaces m t call] at outcome
    rw [asks]
    exact svc_goes_on spaces m.kernel (m.memAt t) t.spEl0 (t.frame m.cpu.spEl1) t call user live k' mem' frame' outcome
  · have stood : (t.frame m.cpu.spEl1).view t.spEl0 (m.memAt t m.kernel.ttbr0) = t.view := by
      simp only [TrapFrame.view, Trap.view, Trap.frame, if_neg call, space]
    have stays : goal t = fun after => after = (t.frame m.cpu.spEl1).view t.spEl0 (m.memAt t m.kernel.ttbr0) := by
      funext after
      simp only [goal, if_neg call, stood]
    have left : leaving spaces m.kernel (m.memAt t) (t.frame m.cpu.spEl1) t = t.frame m.cpu.spEl1 := by
      rw [leaving, if_neg call]
    have trapped := m.handled_trapped spaces t
    rw [outcome] at trapped
    generalize is : Outcome.resumed k' mem' frame' = result at trapped
    rw [stays, left]
    cases trapped with
    | svc also _ _ => exact absurd also call
    | fault _ _ => exact kill_goes_on spaces m.kernel _ _ _ _ _ user live k' mem' frame' is.symm
    | tick _ _ => exact tick_goes_on m.kernel _ _ _ k' mem' frame' is.symm
    | ignored _ _ =>
        cases is
        exact .stays _ _ _ (Kernel.SameTask.refl _) rfl fun _ _ => rfl
    | sError _ => cases is

theorem trap_stands (solo : m.Solo isa diary) (grounded : m.Grounded) (t : Trap) (el0 : m.mode = .el0) (down : m.oops = false)
    (executes : m.Executes isa t) :
    ∃ start, (diary m.kernel.currentTid).start = some start ∧
      Transcript.Writes isa Reply start (written t (diary m.kernel.currentTid).asked) ∧
      ∀ after, goal t after →
        Transcript.Reaches isa Reply ⟨[], start⟩ ⟨written t (diary m.kernel.currentTid).asked, after⟩ := by
  have live := grounded.current down (solo.busy (.inl el0))
  obtain ⟨start, opened, reached⟩ := solo.stands _ live (keeps_el0 m _ el0)
  have stood : Transcript.Reaches isa Reply ⟨[], start⟩ ⟨(diary m.kernel.currentTid).asked, t.view⟩ :=
    reached.trans (Transcript.reaches_plays _ _ _ executes.plays)
  refine ⟨start, opened, ?_, fun after goes => ?_⟩
  · by_cases call : isSvc t = true
    · rw [written, if_pos call]
      exact Transcript.writes_question start t.view _ stood (executes.asks call)
    · rw [written, if_neg call]
      exact Transcript.writes_asked start t.view _ stood
  · by_cases call : isSvc t = true
    · rw [goal, if_pos call] at goes
      rw [written, if_pos call]
      exact Transcript.reaches_answered _ start t.view after stood (executes.asks call) goes
    · rw [goal, if_neg call] at goes
      rw [written, if_neg call, goes]
      exact stood

theorem notes_served (t : Trap) (after : Machine) (serves : m.serves t = true) :
    m.notes (.trap t) after diary =
      Function.update diary m.kernel.currentTid
        { diary m.kernel.currentTid with asked := written t (diary m.kernel.currentTid).asked } := by
  by_cases call : isSvc t = true
  · simp only [notes, written, if_pos call, if_pos (And.intro serves call)]
  · have both : ¬ (m.serves t = true ∧ isSvc t = true) := fun both => call both.2
    simp only [notes, written, if_neg call, if_neg both]
    exact (Function.update_eq_self _ diary).symm

theorem notes_unserved (t : Trap) (after : Machine) (idle : m.enabled (.trap t) = false ∨ m.oops = true) :
    m.notes (.trap t) after diary = diary := by
  have both : ¬ (m.serves t = true ∧ isSvc t = true) := fun both => m.not_serves t idle both.1
  simp only [notes, if_neg both]

theorem serve (solo : m.Solo isa diary) (grounded : m.Grounded) (t : Trap) (el0 : m.mode = .el0) (down : m.oops = false)
    (executes : m.Executes isa t) (after : Machine) (left : Kernel.Leaves m.kernel.currentTid m.kernel after.kernel)
    (busy : after.mode = .el0 ∨ (∃ root, after.mode = .dropping root) → after.kernel.currentTid ≠ 0)
    (level : after.mode = .el0 → after.cpu.spEl0 = userStackTop)
    (own : (after.kernel.table m.kernel.currentTid).state ≠ .exited → after.Keeps m.kernel.currentTid →
      goal t (after.view m.kernel.currentTid))
    (others : ∀ tid, tid ≠ m.kernel.currentTid → (after.kernel.table tid).state ≠ .exited → after.Keeps tid →
      after.view tid = m.view tid) :
    after.Solo isa
      (Function.update diary m.kernel.currentTid
        { diary m.kernel.currentTid with asked := written t (diary m.kernel.currentTid).asked }) := by
  have alive : ∀ tid, (after.kernel.table tid).state ≠ .exited → (m.kernel.table tid).state ≠ .exited :=
    fun tid still gone => still (left.ended tid gone).1
  obtain ⟨start, opened, writes, reached⟩ := solo.trap_stands grounded t el0 down executes
  refine ⟨fun a b first second equal => ?_, busy, level, fun tid start' opened' => ?_, fun tid live keeps => ?_⟩
  · rw [left.space, left.space] at equal
    exact solo.apart a b (alive a first) (alive b second) equal
  · by_cases here : tid = m.kernel.currentTid
    · subst here
      rw [Function.update_self] at opened' ⊢
      rw [Option.some.inj (opened.symm.trans opened')] at writes
      exact writes
    · rw [Function.update_of_ne here] at opened' ⊢
      exact solo.wrote tid start' opened'
  · by_cases here : tid = m.kernel.currentTid
    · subst here
      rw [Function.update_self]
      exact ⟨start, opened, reached _ (own live keeps)⟩
    · rw [Function.update_of_ne here, others tid here live keeps]
      exact solo.stands tid (alive tid live) (keeps_el0 m tid el0)

-- The space of another task is not the one the exception was taken in.
theorem other_space (solo : m.Solo isa diary) (grounded : m.Grounded) (el0 : m.mode = .el0) (down : m.oops = false) (tid : Nat)
    (other : tid ≠ m.kernel.currentTid) (live : (m.kernel.table tid).state ≠ .exited) :
    (m.kernel.table tid).ttbr0Pa ≠ m.kernel.ttbr0 := by
  have user := solo.busy (.inl el0)
  rw [grounded.space down user el0]
  exact fun same => other (solo.apart tid _ live (grounded.current down user) same)

theorem parked_busy (after : Machine) (cause : ParkCause) (mode : after.mode = .parked cause) (current : Nat) :
    after.mode = .el0 ∨ (∃ root, after.mode = .dropping root) → current ≠ 0 := by
  rw [mode]
  rintro (no | ⟨_, no⟩)
  · cases no
  · cases no

theorem parked_level (after : Machine) (cause : ParkCause) (mode : after.mode = .parked cause) (sp : UInt64) :
    after.mode = .el0 → sp = userStackTop := fun el0 => absurd (mode.symm.trans el0) (fun no => (by cases no))

-- The view of the task that took the exception, after the handler has returned:
-- in the frame if the core goes on with it, and else in its slot.
theorem resumed_own (t : Trap) (k' : Kernel) (mem' : UserMem) (frame' : TrapFrame) (after : Machine)
    (resumed : Resumed m .lowerAArch64 t k' mem' frame' after)
    (goes : Resumes (goal t) m.kernel (m.memAt t) t.spEl0 (leaving spaces m.kernel (m.memAt t) (t.frame m.cpu.spEl1) t) k' mem' frame')
    (onward : GoesOnward m.kernel (leaving spaces m.kernel (m.memAt t) (t.frame m.cpu.spEl1) t) (.resumed k' mem' frame'))
    (root : (after.kernel.table m.kernel.currentTid).ttbr0Pa = m.kernel.ttbr0)
    (still : (k'.table m.kernel.currentTid).state ≠ .exited) (keeps : after.Keeps m.kernel.currentTid)
    (level : t.spEl0 = userStackTop) : goal t (after.view m.kernel.currentTid) := by
  have table : after.kernel.table = k'.table := by rw [resumed.kernel]
  have current : after.kernel.currentTid = k'.currentTid := by rw [resumed.kernel]
  by_cases here : m.kernel.currentTid = after.kernel.currentTid
  · have running : after.mode = .el0 := by
      cases mode : after.mode with
      | el0 => rfl
      | monitor =>
          rw [resumed.mode, resumeMode] at mode
          split_ifs at mode with _ own
          exact absurd own.1 (by decide)
      | dropping _ =>
          rw [Keeps, mode] at keeps
          exact absurd here keeps
      | parked cause => exact absurd keeps (parked_keeps after _ cause mode)
    have view : after.view m.kernel.currentTid = frame'.view t.spEl0 (mem' m.kernel.ttbr0) := by
      rw [here, view_core after running, ← here, root, resumed.x, resumed.pc, resumed.pstate, resumed.spEl0, resumed.mem]
      rfl
    rw [view]
    by_cases same : k'.dispatches = m.kernel.dispatches
    · exact (goes.here same).2
    · obtain ⟨untouched, gone | told⟩ := goes.away same
      · exact absurd gone still
      · cases onward.resumes k' mem' frame' rfl with
        | stays kept _ _ => exact absurd kept.dispatches same
        | switches next _ _ now _ _ loaded =>
            rw [loaded, if_pos (now.symm.trans (current.symm.trans here.symm)), untouched]
            exact told
  · have moved : k'.currentTid ≠ m.kernel.currentTid := fun same => here (same.symm.trans current.symm)
    have saved : (k'.table m.kernel.currentTid).saved = leaving spaces m.kernel (m.memAt t) (t.frame m.cpu.spEl1) t :=
      (onward.behind moved).resolve_left still
    have switched : k'.dispatches ≠ m.kernel.dispatches := fun same => moved (goes.here same).1
    obtain ⟨untouched, gone | told⟩ := goes.away switched
    · exact absurd gone still
    · rw [view_saved after _ (fun _ => here), root, table, resumed.mem, saved, untouched, ← level]
      exact told

theorem resumed_other (t : Trap) (k' : Kernel) (mem' : UserMem) (frame' : TrapFrame) (after : Machine)
    (resumed : Resumed m .lowerAArch64 t k' mem' frame' after)
    (goes : Resumes (goal t) m.kernel (m.memAt t) t.spEl0 (leaving spaces m.kernel (m.memAt t) (t.frame m.cpu.spEl1) t) k' mem' frame')
    (way : Onward m.kernel (leaving spaces m.kernel (m.memAt t) (t.frame m.cpu.spEl1) t) k' frame')
    (leaves : Kernel.Leaves m.kernel.currentTid m.kernel after.kernel) (level : after.mode = .el0 → after.cpu.spEl0 = userStackTop)
    (tid : Nat) (other : tid ≠ m.kernel.currentTid) (space : (m.kernel.table tid).ttbr0Pa ≠ m.kernel.ttbr0) :
    after.view tid = m.view tid := by
  have current : after.kernel.currentTid = k'.currentTid := by rw [resumed.kernel]
  have saved : (after.kernel.table tid).saved = (m.kernel.table tid).saved := congrArg (·.1) (leaves.others tid other)
  have bytes : after.mem (after.kernel.table tid).ttbr0Pa = m.mem (m.kernel.table tid).ttbr0Pa := by
    rw [resumed.mem, leaves.space, goes.others _ space]
    exact Function.update_of_ne space ..
  rw [view_saved m tid (fun _ => other)]
  by_cases now : after.mode = .el0 ∧ tid = after.kernel.currentTid
  · rw [now.2, view_core after now.1, ← now.2, bytes, resumed.x, resumed.pc, resumed.pstate, level now.1]
    cases way with
    | stays same _ _ => exact absurd (now.2.trans (current.trans same.current)) other
    | switches next _ _ is _ _ loaded =>
        have dispatched : tid = next := now.2.trans (current.trans is)
        rw [loaded, if_neg (dispatched ▸ other), ← dispatched]
        rfl
  · rw [view_saved after tid (fun el0 here => now ⟨el0, here⟩), saved, bytes]

theorem trap (solo : m.Solo isa diary) (grounded : m.Grounded) (address : Static → UInt64) (t : Trap)
    (executes : m.enabled (.trap t) = true → m.Executes isa t) :
    (m.next spaces address (.trap t)).Solo isa (m.notes (.trap t) (m.next spaces address (.trap t)) diary) := by
  have step := stepped spaces address m (.trap t)
  generalize m.next spaces address (.trap t) = after at step
  cases step with
  | ignored disabled =>
      rw [notes_unserved t m (.inl disabled)]
      exact solo
  | calm _ quiet => cases quiet
  | nested enabled _ _ _ raised after mode _ kernel =>
      rw [notes_unserved t after (.inr raised)]
      refine solo.unmoved after (fun tid live => ?_) (parked_busy after .nested mode _) (parked_level after .nested mode _)
        fun tid _ keeps => absurd keeps (parked_keeps after tid .nested mode)
      rw [kernel] at live ⊢
      exact ⟨live, rfl⟩
  | resumed enabled source t' taken down k' mem' frame' outcome after resumed =>
      cases taken
      have el0 := trap_el0 m t enabled
      have user := solo.busy (.inl el0)
      have live := grounded.current down user
      have left := handled_leaves spaces m (.trap t) _ t rfl
      have onward := m.handled_onward spaces grounded.confined t
      rw [outcome] at left onward
      have way := onward.resumes k' mem' frame' rfl
      have goes := trap_goes_on spaces t (grounded.confined _ live) live k' mem' frame' outcome
      have table : after.kernel.table = k'.table := by rw [resumed.kernel]
      have current : after.kernel.currentTid = k'.currentTid := by rw [resumed.kernel]
      have leaves : Kernel.Leaves m.kernel.currentTid m.kernel after.kernel := by
        rw [resumed.kernel]
        exact left.trans (Kernel.Leaves.of_table rfl)
      have root : (after.kernel.table m.kernel.currentTid).ttbr0Pa = m.kernel.ttbr0 := by
        rw [leaves.space, grounded.space down user el0]
      rw [notes_served t after ((m.serves_iff t).mpr ⟨enabled, down⟩)]
      have level := (executes enabled).level
      have sp : after.mode = .el0 → after.cpu.spEl0 = userStackTop := fun _ => resumed.spEl0.trans level
      refine solo.serve grounded t el0 down (executes enabled) after leaves (fun _ => ?_) sp (fun still keeps => ?_)
        fun tid other still _ => ?_
      · rw [current]
        cases way with
        | stays same _ _ => exact fun zero => user (same.current.symm.trans zero)
        | switches next _ was now _ _ _ => exact fun zero => Nat.ne_of_gt (grounded.confined next was).1 (now.symm.trans zero)
      · rw [table] at still
        exact resumed_own spaces t k' mem' frame' after resumed goes onward root still keeps level
      · have was : (m.kernel.table tid).state ≠ .exited := fun gone => still (leaves.ended tid gone).1
        exact resumed_other spaces t k' mem' frame' after resumed goes way leaves sp tid other
          (solo.other_space grounded el0 down tid other was)
  | returned enabled source t' taken down k' outcome after returned =>
      cases taken
      have el0 := trap_el0 m t enabled
      have leaves := handled_leaves spaces m (.trap t) _ t rfl
      have onward := m.handled_onward spaces grounded.confined t
      have kernel : after.kernel = k' := returned.kernel
      rw [outcome] at leaves onward
      obtain ⟨_, ended⟩ := onward.returns k' rfl
      change Kernel.Leaves m.kernel.currentTid m.kernel k' at leaves
      rw [← kernel] at leaves ended
      rw [notes_served t after ((m.serves_iff t).mpr ⟨enabled, down⟩)]
      refine solo.serve grounded t el0 down (executes enabled) after leaves (monitor_busy returned.mode _)
        (monitor_level returned.mode _)
        (fun still _ => absurd ended still) fun tid other still _ => ?_
      have was : (m.kernel.table tid).state ≠ .exited := fun gone => still (leaves.ended tid gone).1
      have space := solo.other_space grounded el0 down tid other was
      have saved : (after.kernel.table tid).saved = (m.kernel.table tid).saved := congrArg (·.1) (leaves.others tid other)
      have idle : after.mode = .el0 → tid ≠ after.kernel.currentTid :=
        fun no => absurd (returned.mode.symm.trans no) (fun no => (by cases no))
      rw [view_saved after tid idle, view_saved m tid (fun _ => other), saved, returned.mem, leaves.space]
      change (m.kernel.table tid).saved.view userStackTop (m.memAt t (m.kernel.table tid).ttbr0Pa) = _
      rw [memAt, Function.update_of_ne space]
  | parked enabled source t' taken down cause k' outcome after mode oops kernel =>
      cases taken
      have leaves := handled_leaves spaces m (.trap t) _ t rfl
      rw [outcome] at leaves
      change Kernel.Leaves m.kernel.currentTid m.kernel k' at leaves
      rw [← kernel] at leaves
      rw [notes_served t after ((m.serves_iff t).mpr ⟨enabled, down⟩)]
      exact solo.serve grounded t (trap_el0 m t enabled) down (executes enabled) after leaves (parked_busy after cause mode _)
        (parked_level after cause mode _)
        (fun _ keeps => absurd keeps (parked_keeps after _ cause mode))
        fun tid _ _ keeps => absurd keeps (parked_keeps after tid cause mode)

end

theorem step (solo : m.Solo isa diary) (grounded : m.Grounded) (spaces : AddressSpaces) (address : Static → UInt64) (event : Event)
    (inside : event.InSession) (unshared : m.Unshared isa event) :
    (m.next spaces address event).Solo isa (m.notes event (m.next spaces address event) diary) := by
  by_cases taken : ∃ t, event = .trap t
  · obtain ⟨t, rfl⟩ := taken
    exact solo.trap spaces grounded address t unshared
  · by_cases enabled : m.enabled event = true
    · rw [next_enabled spaces address m event enabled]
      cases event with
      | build root image code => exact solo.build (of_decide_eq_true enabled) root image code unshared
      | spawn args =>
          have monitor : m.mode = .monitor := of_decide_eq_true enabled
          simp only [notes, if_pos enabled]
          exact solo.spawn monitor args unshared
      | arm =>
          refine solo.unmoved _ (fun tid live => ⟨live, rfl⟩) (monitor_busy (of_decide_eq_true enabled) _)
            (monitor_level (of_decide_eq_true enabled) _) fun tid _ keeps => ?_
          exact ⟨keeps, rfl⟩
      | drop unmask => exact solo.drop grounded.confined (of_decide_eq_true enabled) unmask
      | dropUser root => exact absurd inside id
      | unmask =>
          refine solo.unmoved _ (fun tid live => ⟨live, rfl⟩) (monitor_busy (of_decide_eq_true enabled) _)
            (monitor_level (of_decide_eq_true enabled) _) fun tid _ keeps => ?_
          exact ⟨keeps, rfl⟩
      | el1 t => exact absurd inside id
      | enter residue =>
          cases dropping : m.mode with
          | dropping root =>
              simp only [notes, if_pos enabled, fire, dropping]
              exact solo.enter root dropping residue
          | _ => simp [Machine.enabled, dropping] at enabled
      | trap t => exact absurd ⟨t, rfl⟩ taken
    · have untouched : m.notes event m diary = diary := by
        cases event with
        | spawn args => simp only [notes, if_neg enabled]
        | enter residue => simp only [notes, if_neg enabled]
        | trap t => exact absurd ⟨t, rfl⟩ taken
        | _ => rfl
      rw [next_disabled spaces address m event enabled, untouched]
      exact solo

end Solo

section
variable (spaces : AddressSpaces) (address : Static → UInt64) (cpu : Cpu)

theorem boot_solo : (boot spaces cpu).Solo isa fun _ => ⟨none, []⟩ where
  apart := fun _ _ live => absurd rfl live
  busy := Solo.monitor_busy rfl _
  level := Solo.monitor_level rfl _
  wrote := fun _ _ no => (by cases no)
  stands := fun _ live => absurd rfl live

-- A session of tasks with nothing in memory in common.
def Session (events : List Event) : Prop :=
  Run.Along (next spaces address) (fun m event => event.InSession ∧ m.Unshared isa event) (boot spaces cpu) events

-- The end of a run, with every task's diary.
def noted (events : List Event) : Machine × (Nat → Diary) :=
  Run.exec (Run.recorded (next spaces address) notes) (boot spaces cpu, fun _ => ⟨none, []⟩) events

theorem session_recorded (events : List Event) (session : Session isa spaces address cpu events) :
    Run.Along (Run.recorded (next spaces address) notes) (fun state event => event.InSession ∧ state.1.Unshared isa event)
      (boot spaces cpu, fun _ => ⟨none, []⟩) events :=
  Run.along_recorded (next spaces address) notes _ (boot spaces cpu, fun _ => ⟨none, []⟩) events session

theorem solo_next (state : Machine × (Nat → Diary)) (event : Event) (solo : state.1.Grounded ∧ state.1.Solo isa state.2)
    (session : event.InSession ∧ state.1.Unshared isa event) :
    (Run.recorded (next spaces address) notes state event).1.Grounded ∧
      (Run.recorded (next spaces address) notes state event).1.Solo isa
        (Run.recorded (next spaces address) notes state event).2 :=
  ⟨grounded_step spaces address state.1 solo.1 event, solo.2.step solo.1 spaces address event session.1 session.2⟩

theorem noted_solo (events : List Event) (session : Session isa spaces address cpu events) :
    (noted spaces address cpu events).1.Solo isa (noted spaces address cpu events).2 :=
  (Run.invariant _ _ (fun state => state.1.Grounded ∧ state.1.Solo isa state.2) (solo_next isa spaces address) _ events
    ⟨boot_grounded spaces cpu, boot_solo isa spaces cpu⟩ (session_recorded isa spaces address cpu events session)).2

-- In every state of every session, a task's registers, its program counter and
-- all of its memory are those of its own program run alone, but for what its own
-- calls were answered. No interrupt, no switch and no other task shows in them.
theorem tasks_run_alone (events : List Event) (session : Session isa spaces address cpu events) :
    Run.Always (Run.recorded (next spaces address) notes)
      (fun state => ∀ tid, (state.1.kernel.table tid).state ≠ .exited → state.1.Keeps tid →
        ∃ start, (state.2 tid).start = some start ∧
          Transcript.Reaches isa Reply ⟨[], start⟩ ⟨(state.2 tid).asked, state.1.view tid⟩)
      (boot spaces cpu, fun _ => ⟨none, []⟩) events :=
  Run.always_of_invariant _ _ (fun state => state.1.Grounded ∧ state.1.Solo isa state.2) _ (solo_next isa spaces address)
    (fun _ solo => solo.2.stands) _ events ⟨boot_grounded spaces cpu, boot_solo isa spaces cpu⟩
    (session_recorded isa spaces address cpu events session)

end

-- A program that is one svc, made with whatever the registers hold, and a loop
-- that does nothing.
def oneCall : Transcript.Player View where
  step v := if v.pc = userCodeVa then none else some v
  asks v := decide (v.pc = userCodeVa)
  pauses _ question := if_pos (of_decide_eq_true question)

def oneCallStart : View := ⟨fun i => if i.val < 19 then 0 else 0, userCodeVa, 0, userStackTop, fun _ => 0⟩

-- The current task makes the call it stands on, or the timer fires there.
def callHere (m : Machine) : Event :=
  .trap { Trap.svc m.cpu.x m.cpu.pc with
    pstate := m.cpu.pstate, spEl0 := m.cpu.spEl0, space := m.mem (m.kernel.table m.kernel.currentTid).ttbr0Pa }

def tickHere (m : Machine) : Event :=
  .trap { Trap.tick m.cpu.x m.cpu.pc with
    pstate := m.cpu.pstate, spEl0 := m.cpu.spEl0, space := m.mem (m.kernel.table m.kernel.currentTid).ttbr0Pa }

theorem call_here (m : Machine) (el0 : m.mode = .el0) (level : m.cpu.spEl0 = userStackTop)
    (asks : isa.asks (m.view m.kernel.currentTid) = true) : m.Unshared isa m.callHere := by
  have view : m.view m.kernel.currentTid =
      Trap.view { Trap.svc m.cpu.x m.cpu.pc with
        pstate := m.cpu.pstate, spEl0 := m.cpu.spEl0, space := m.mem (m.kernel.table m.kernel.currentTid).ttbr0Pa } := by
    have svc : ∀ (p sp : UInt64) space, isSvc { Trap.svc m.cpu.x m.cpu.pc with pstate := p, spEl0 := sp, space := space } = true :=
      fun _ _ _ => decide_eq_true ⟨rfl, (by decide : exceptionClass (ecSvc64 <<< (26 : UInt64)) = ecSvc64)⟩
    rw [view_core m el0, Trap.view, svc, if_pos rfl]
    simp only [Trap.svc, UInt64.add_sub_cancel]
  exact fun _ => ⟨view ▸ .refl, fun _ => view ▸ asks, level⟩

theorem tick_here (m : Machine) (el0 : m.mode = .el0) (level : m.cpu.spEl0 = userStackTop) : m.Unshared isa m.tickHere := by
  have view : m.view m.kernel.currentTid =
      Trap.view { Trap.tick m.cpu.x m.cpu.pc with
        pstate := m.cpu.pstate, spEl0 := m.cpu.spEl0, space := m.mem (m.kernel.table m.kernel.currentTid).ttbr0Pa } :=
    view_core m el0
  exact fun _ => ⟨view ▸ .refl, fun call => (by cases call), level⟩

-- A run in which each event depends on where the machine has come to.
def following : List (Machine → Event) → Machine → List Event
  | [], _ => []
  | move :: rest, m => move m :: following rest (m.next flat (fun _ => 0) (move m))

-- Two tasks run the program in turn: the first makes its call, the timer gives
-- the core to the second, which makes its own, and gives it back.
def twoCallers : List (Machine → Event) :=
  [ fun _ => .spawnAt 1 one_root, fun _ => .spawnAt 2 two_root, fun _ => .arm, fun _ => .drop true, fun _ => .enter fun _ => 0,
    callHere, tickHere, callHere, tickHere, tickHere ]

def oneCaller : List (Machine → Event) :=
  [fun _ => .spawnAt 1 one_root, fun _ => .drop false, fun _ => .enter fun _ => 0, callHere]

def run (moves : List (Machine → Event)) : List Event := following moves (boot flat coldCpu)

theorem one_caller_session : Session oneCall flat (fun _ => 0) coldCpu (run oneCaller) :=
  ⟨⟨trivial, fun _ live => absurd rfl live⟩, ⟨trivial, trivial⟩, ⟨trivial, trivial⟩,
    ⟨trivial, call_here oneCall _ (by decide) (by decide) (by decide +kernel)⟩, trivial⟩

theorem two_callers_session : Session oneCall flat (fun _ => 0) coldCpu (run twoCallers) := by
  refine ⟨⟨trivial, fun _ live => absurd rfl live⟩, ⟨trivial, fun tid live => ?_⟩, ⟨trivial, trivial⟩, ⟨trivial, trivial⟩,
    ⟨trivial, trivial⟩, ⟨trivial, call_here oneCall _ (by decide +kernel) (by decide +kernel) (by decide +kernel)⟩,
    ⟨trivial, tick_here oneCall _ (by decide +kernel) (by decide +kernel)⟩,
    ⟨trivial, call_here oneCall _ (by decide +kernel) (by decide +kernel) (by decide +kernel)⟩,
    ⟨trivial, tick_here oneCall _ (by decide +kernel) (by decide +kernel)⟩,
    ⟨trivial, tick_here oneCall _ (by decide +kernel) (by decide +kernel)⟩, trivial⟩
  rcases tid with _ | _ | tid
  · exact absurd rfl live
  · decide
  · exact absurd rfl live

theorem tasks_run_alone_two_callers :
    Run.Always (Run.recorded (next flat fun _ => 0) notes)
      (fun state => ∀ tid, (state.1.kernel.table tid).state ≠ .exited → state.1.Keeps tid →
        ∃ start, (state.2 tid).start = some start ∧
          Transcript.Reaches oneCall Reply ⟨[], start⟩ ⟨(state.2 tid).asked, state.1.view tid⟩)
      (boot flat coldCpu, fun _ => ⟨none, []⟩) (run twoCallers) :=
  tasks_run_alone oneCall flat (fun _ => 0) coldCpu (run twoCallers) two_callers_session

-- The timer has switched three times, and both tasks have called.
example :
    let now := noted flat (fun _ => 0) coldCpu (run twoCallers)
    now.1.kernel.preempts = 3 ∧ (now.2 1).asked.length = 1 ∧ (now.2 2).asked.length = 1 := by decide +kernel

-- In any two sessions, with whatever companions and whenever the timer fires, a
-- program whose calls all are quiet makes the same calls from the same registers
-- and memory: one session only sees more of them than the other.
theorem companions_unseen (start : View)
    (quiet : ∀ r, Transcript.Reaches isa Reply ⟨[], start⟩ r → isa.asks r.now = true → Quiet r.now)
    (spaces spaces' : AddressSpaces) (address address' : Static → UInt64) (cpu cpu' : Cpu) (events events' : List Event)
    (session : Session isa spaces address cpu events) (session' : Session isa spaces' address' cpu' events') (tid tid' : Nat)
    (opened : ((noted spaces address cpu events).2 tid).start = some start)
    (opened' : ((noted spaces' address' cpu' events').2 tid').start = some start) :
    ((noted spaces address cpu events).2 tid).asked <+: ((noted spaces' address' cpu' events').2 tid').asked ∨
      ((noted spaces' address' cpu' events').2 tid').asked <+: ((noted spaces address cpu events).2 tid).asked := by
  have settled : Transcript.Settled isa Reply start := by
    intro r reached question a b one other
    have alone := quiet r reached question
    rw [quiet_reply r.now a alone one, quiet_reply r.now b alone other]
  have one := (noted_solo isa spaces address cpu events session).wrote tid start opened
  have other := (noted_solo isa spaces' address' cpu' events' session').wrote tid' start opened'
  exact Transcript.transcripts_comparable start settled _ _ one other

theorem trap_keeps_start (t : Trap) (state : Machine × (Nat → Diary)) (tid : Nat) :
    ((Run.recorded (next flat fun _ => 0) notes state (.trap t)).2 tid).start = (state.2 tid).start := by
  simp only [Run.recorded, notes]
  split_ifs
  · by_cases own : tid = state.1.kernel.currentTid
    · rw [own, Function.update_self]
    · rw [Function.update_of_ne own]
  · rfl

theorem traps_keep_start (state : Machine × (Nat → Diary)) (events : List Event) (traps : ∀ event ∈ events, ∃ t, event = .trap t)
    (tid : Nat) :
    ((Run.exec (Run.recorded (next flat fun _ => 0) notes) state events).2 tid).start = (state.2 tid).start := by
  induction events generalizing state with
  | nil => rfl
  | cons event rest ih =>
      obtain ⟨t, rfl⟩ := traps event List.mem_cons_self
      rw [Run.exec_cons, ih _ fun other later => traps other (List.mem_cons_of_mem _ later)]
      exact trap_keeps_start t state tid

theorem two_callers_opened : ((noted flat (fun _ => 0) coldCpu (run twoCallers)).2 1).start = some oneCallStart := by
  have split := List.take_append_drop 5 (run twoCallers)
  rw [noted, ← split, Run.exec_append, traps_keep_start]
  · rfl
  · intro event member
    have turns : (run twoCallers).drop 5 = [_, _, _, _, _] := rfl
    rw [turns] at member
    simp only [List.mem_cons, List.not_mem_nil, or_false] at member
    rcases member with rfl | rfl | rfl | rfl | rfl <;> exact ⟨_, rfl⟩

theorem one_call_quiet (r : Transcript.Record View) (reached : Transcript.Reaches oneCall Reply ⟨[], oneCallStart⟩ r)
    (question : oneCall.asks r.now = true) : Quiet r.now := by
  have kept : r.now = oneCallStart ∨ r.now.pc ≠ userCodeVa := by
    clear question
    induction reached with
    | refl => exact .inl rfl
    | tail _ step ih =>
        cases step with
        | plays asked v v' goes =>
            simp only [oneCall] at goes
            split_ifs at goes with there
            exact .inr (Option.some.inj goes ▸ there)
        | answered asked v v' question answer =>
            rcases ih with rfl | away
            · exact .inr (by
                rw [quiet_reply oneCallStart v' (by decide) answer]
                exact (show oneCallStart.after.pc ≠ userCodeVa by decide))
            · exact absurd (of_decide_eq_true question) away
  rcases kept with same | away
  · rw [same]
    decide
  · exact absurd (of_decide_eq_true question) away

theorem companions_unseen_two_callers :
    ((noted flat (fun _ => 0) coldCpu (run twoCallers)).2 1).asked <+:
        ((noted flat (fun _ => 0) coldCpu (run oneCaller)).2 1).asked ∨
      ((noted flat (fun _ => 0) coldCpu (run oneCaller)).2 1).asked <+:
        ((noted flat (fun _ => 0) coldCpu (run twoCallers)).2 1).asked :=
  companions_unseen oneCall oneCallStart one_call_quiet flat flat (fun _ => 0) (fun _ => 0) coldCpu coldCpu (run twoCallers)
    (run oneCaller) two_callers_session one_caller_session 1 1 two_callers_opened rfl

end Machine

end Opal
