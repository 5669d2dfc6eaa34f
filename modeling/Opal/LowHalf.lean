import Opal.Containment
import Opal.Grounded
import Opal.Guard
import Opal.Resources

set_option autoImplicit false

namespace Opal

-- The statics that the scheduler's side and the MMU's side both name.
structure Site where
  layout : Mmu.Layout
  spaces : AddressSpaces
  statics : UserStatics
  empty_root : spaces.emptyRoot.toNat = layout.emptyRoot
  user_tables : statics.userTables.toNat = layout.frame 0 0
  task_mem : ∀ slot, (statics.taskMem slot).toNat = layout.frame (slot.val + 1) 0

-- The roots that TTBR0 can be given, and the index of the user space each
-- belongs to.
def Site.slotOf (site : Site) (root : UInt64) : Option Nat :=
  if root = site.statics.userTables then some 0
  else if root = site.statics.taskMem 0 then some 1
  else if root = site.statics.taskMem 1 then some 2
  else none

-- The whole kernel: the machine under its console, TTBR0 with it, and the
-- physical memory the tables are in.
structure System where
  console : Console
  mem : Mmu.Memory
  runtimeIdx : Nat
  ttbr1 : Nat

-- What happens at the console or to the machine, prog being what a build that
-- is due copies; a mapping call, with va = phys_to_virt(pa) as every caller has
-- it; a store through the tables in TTBR0, by a task or by a handler on its
-- behalf.
inductive Move where
  | input (input : Input) (prog : Mmu.Image)
  | ioremapDevice (pa : UInt64)
  | ioremapFramebuffer (pa : UInt64)
  | store (va : UInt64) (byte : UInt8)

namespace System

-- kmain after its condemn_low_half.
def start (site : Site) (cpu : Cpu) (root : Nat) (built : Mmu.Memory) : System := ⟨Console.boot site.spaces cpu, built, 0, root⟩

section
variable (site : Site) (address : Static → UInt64) (sys : System)

-- The registers and the memory that the MMU sees.
def mmu : Mmu.State := ⟨sys.mem, sys.runtimeIdx, sys.console.machine.kernel.ttbr0.toNat, sys.ttbr1⟩

def built (root : UInt64) (prog : Mmu.Image) : Mmu.Memory :=
  match site.slotOf root with
  | none => sys.mem
  | some k =>
      match site.layout.buildAt sys.mem k prog with
      | none => sys.mem
      | some (_, mem) => mem

-- The build that the running command makes next, if it makes one.
def memAfter (input : Input) (prog : Mmu.Image) : Mmu.Memory :=
  match input, sys.console.todo with
  | .proceed, .build root _ _ :: _ => if sys.console.machine.mode = .monitor then sys.built site root prog else sys.mem
  | _, _ => sys.mem

def mapped (s : Mmu.State) : System := { sys with mem := s.mem, runtimeIdx := s.runtimeIdx }

def next : Move → System
  | .input input prog =>
      { sys with
        console := sys.console.step site.spaces address site.statics input
        mem := sys.memAfter site input prog }
  | .ioremapDevice pa => sys.mapped (sys.mmu.ioremapDevice site.layout (Mmu.physToVirt pa.toNat) pa.toNat).2
  | .ioremapFramebuffer pa => sys.mapped (sys.mmu.ioremapFramebuffer site.layout (Mmu.physToVirt pa.toNat) pa.toNat).2
  | .store va byte =>
      if sys.console.machine.mode = .el0 ∧ va.toNat >>> 48 = 0 then
        { sys with mem := Mmu.userStore sys.mem sys.console.machine.kernel.ttbr0.toNat va.toNat byte }
      else sys

-- Nothing lies in the low half: a load from address 0 faults at the first
-- table.
structure Condemned : Prop where
  register : sys.console.machine.kernel.ttbr0.toNat = site.layout.emptyRoot
  zero : ∀ i, i < 2048 → Mmu.readTable sys.mem site.layout.emptyRoot i = 0
  faults : ∀ va, va >>> 48 = 0 → sys.mmu.hardwareWalk va = .fault 0 0

end

end System

-- Events that bring in these roots at most.
def Event.Within (roots : List UInt64) : Event → Prop
  | .spawn args => args.ttbr0Pa ∈ roots
  | .dropUser root => root ∈ roots
  | _ => True

namespace Machine

-- Where the roots of address spaces come from. In the monitor it is the empty
-- root.
structure Housed (emptyRoot : UInt64) (roots : List UInt64) (m : Machine) : Prop where
  tasks : ∀ tid, (m.kernel.table tid).state ≠ .exited → (m.kernel.table tid).ttbr0Pa ∈ roots
  user : m.mode = .el0 → m.kernel.ttbr0 ∈ roots
  drops : ∀ root, m.mode = .dropping root → root ∈ roots
  monitor : m.mode = .monitor → m.kernel.ttbr0 = emptyRoot

section
variable (spaces : AddressSpaces) (address : Static → UInt64) (roots : List UInt64) (m : Machine)

theorem returns_condemned (event : Event) (source : Source) (t : Trap) (taken : event.exception = some (source, t)) (k : Kernel)
    (outcome : m.handled spaces source t = .toMonitor k) : k.ttbr0 = spaces.emptyRoot := by
  cases event with
  | trap fault =>
      cases taken
      rcases to_monitor_by spaces m t k outcome with ⟨_, exits⟩ | ⟨_, kills⟩
      · unfold svcExit at exits
        dsimp only at exits
        split_ifs at exits <;> cases exits <;> rfl
      · unfold killTaskFromEl0 at kills
        dsimp only at kills
        split_ifs at kills
        cases kills
        rfl
  | el1 fault =>
      cases taken
      have stays := el1_outcome spaces m.kernel (m.memFor .currentSpElx t) (t.frame m.cpu.spEl1) t.kind t.device
      change m.handled spaces .currentSpElx t = _ at outcome
      unfold handled at outcome
      rw [outcome] at stays
      rcases stays with ⟨_, _, _, no⟩ | ⟨_, _, _, no⟩
      · cases no
      · cases no
  | _ => cases taken

theorem tasks_step (event : Event) (within : event.Within roots)
    (tasks : ∀ tid, (m.kernel.table tid).state ≠ .exited → (m.kernel.table tid).ttbr0Pa ∈ roots) (tid : Nat)
    (live : ((m.next spaces address event).kernel.table tid).state ≠ .exited) :
    ((m.next spaces address event).kernel.table tid).ttbr0Pa ∈ roots := by
  by_cases old : ∀ args, event ≠ .spawn args
  · have left := next_leaves spaces address m event old
    rw [left.space]
    exact tasks tid fun gone => live (left.ended tid gone).1
  · rw [not_forall] at old
    obtain ⟨args, spawns⟩ := old
    rw [not_not] at spawns
    subst spawns
    unfold next at live ⊢
    split_ifs at live ⊢ with enabled
    · simp only [fire] at live ⊢
      rcases spawn_cases m.kernel args with ⟨_, same⟩ | ⟨fresh, _, _, _, same⟩
      · rw [same] at live ⊢
        exact tasks tid live
      · rw [same, Kernel.enqueue_table, Kernel.set_task_table] at live ⊢
        by_cases here : tid = fresh
        · rw [here, Function.update_self]
          exact within
        · rw [Function.update_of_ne here] at live ⊢
          exact tasks tid live
    · exact tasks tid live

theorem resumed_housed (grounded : m.Grounded) (housed : m.Housed spaces.emptyRoot roots) (event : Event)
    (enabled : m.enabled event = true) (source : Source) (t : Trap) (taken : event.exception = some (source, t))
    (down : m.oops = false) (k : Kernel) (mem : UserMem) (frame : TrapFrame)
    (outcome : m.handled spaces source t = .resumed k mem frame) (after : Machine)
    (resumed : Resumed m source t k mem frame after)
    (tasks : ∀ tid, (after.kernel.table tid).state ≠ .exited → (after.kernel.table tid).ttbr0Pa ∈ roots) :
    after.Housed spaces.emptyRoot roots := by
  have left := handled_leaves spaces m event source t taken
  have way := (m.exception_onward spaces grounded.confined event source t taken).resumes k mem frame outcome
  rw [outcome] at left
  dsimp only [Outcome.kernel] at left
  have origin := origin_of m event enabled source t taken
  have root : after.kernel.ttbr0 = k.ttbr0 := by rw [resumed.kernel]
  have mode := resumed.mode
  unfold resumeMode at mode
  cases way with
  | stays same _ pstate =>
      rw [left_pstate] at pstate
      rw [pstate, same.current] at mode
      rw [same.root] at root
      rcases origin with ⟨rfl, el1⟩ | ⟨rfl, el0, user⟩
      · -- Kernel code goes on where it was.
        rw [el1, if_neg Bool.false_ne_true, if_pos ⟨rfl, rfl⟩] at mode
        refine ⟨tasks, fun user => ?_, fun drops dropping => ?_, fun monitor => ?_⟩
        · rw [root]
          exact housed.user (mode ▸ user)
        · exact housed.drops drops (mode ▸ dropping)
        · rw [root]
          exact housed.monitor (mode ▸ monitor)
      · rw [user, if_pos rfl] at mode
        refine ⟨tasks, fun _ => ?_, fun root no => ?_, fun no => ?_⟩
        · rw [root]
          exact housed.user el0
        · rw [mode] at no
          cases no
        · rw [mode] at no
          cases no
  | switches next _ live goes runs loads _ =>
      have inside := housed.tasks next live
      rw [if_pos (grounded.rooted next live)] at loads
      refine ⟨tasks, fun _ => by rwa [root, loads], fun drops dropping => ?_, fun monitor => ?_⟩
      · rw [mode] at dropping
        split_ifs at dropping with _ own
        · exact housed.drops drops dropping
        · rw [← Mode.dropping.inj dropping, goes, left.space]
          exact inside
      · rw [mode] at monitor
        split_ifs at monitor with _ own
        have nobody := grounded.idle down monitor
        rw [← own.2, goes] at nobody
        have user := (grounded.confined next live).1
        omega

theorem fired_housed (housed : m.Housed spaces.emptyRoot roots) (event : Event) (enabled : m.enabled event = true)
    (quiet : event.exception = none) (within : event.Within roots)
    (tasks : ∀ tid, ((m.fire spaces address event).kernel.table tid).state ≠ .exited →
      ((m.fire spaces address event).kernel.table tid).ttbr0Pa ∈ roots) :
    (m.fire spaces address event).Housed spaces.emptyRoot roots := by
  have stays : ∀ after : Machine, after.kernel.ttbr0 = m.kernel.ttbr0 → after.mode = m.mode →
      (∀ tid, (after.kernel.table tid).state ≠ .exited → (after.kernel.table tid).ttbr0Pa ∈ roots) →
      after.Housed spaces.emptyRoot roots := by
    intro after root mode tasks
    refine ⟨tasks, ?_, ?_, ?_⟩
    · rw [root, mode]
      exact housed.user
    · rw [mode]
      exact housed.drops
    · rw [root, mode]
      exact housed.monitor
  cases event with
  | build root image code => exact stays _ rfl rfl tasks
  | spawn args =>
      refine stays _ ?_ rfl tasks
      simp only [fire]
      rcases spawn_cases m.kernel args with ⟨_, same⟩ | ⟨_, _, _, _, same⟩
      · rw [same]
      · rw [same]
        rfl
  | arm => exact stays _ rfl rfl tasks
  | drop unmask =>
      change (m.dropScheduled unmask).Housed spaces.emptyRoot roots
      change ∀ tid, ((m.dropScheduled unmask).kernel.table tid).state ≠ .exited →
        ((m.dropScheduled unmask).kernel.table tid).ttbr0Pa ∈ roots at tasks
      rcases drop_cases m unmask with ⟨_, same⟩ | ⟨_, _, _, _, same⟩ | ⟨first, _, t, _, found, same⟩
      · rw [same]
        exact housed
      · rw [same] at tasks ⊢
        exact stays _ rfl rfl tasks
      · obtain ⟨_, live, rfl⟩ := (Kernel.task_eq_some _ _ _).mp found
        rw [same] at tasks ⊢
        refine ⟨tasks, fun no => (by cases no), fun root dropping => ?_, fun no => (by cases no)⟩
        rw [← Mode.dropping.inj dropping]
        exact housed.tasks first live
  | dropUser root =>
      refine ⟨tasks, fun no => (by cases no), fun other dropping => ?_, fun no => (by cases no)⟩
      rw [← Mode.dropping.inj dropping]
      exact within
  | unmask => exact stays _ rfl rfl tasks
  | el1 t => cases quiet
  | enter residue =>
      cases dropping : m.mode with
      | dropping root =>
          simp only [fire, dropping] at tasks ⊢
          exact ⟨tasks, fun _ => housed.drops root dropping, fun _ no => (by cases no), fun no => (by cases no)⟩
      | _ => simp [Machine.enabled, dropping] at enabled
  | trap t => cases quiet

theorem housed_step (grounded : m.Grounded) (housed : m.Housed spaces.emptyRoot roots) (event : Event)
    (within : event.Within roots) : (m.next spaces address event).Housed spaces.emptyRoot roots := by
  have tasks := tasks_step spaces address roots m event within housed.tasks
  have step := stepped spaces address m event
  generalize m.next spaces address event = after at step tasks
  cases step with
  | ignored _ => exact housed
  | calm enabled quiet =>
      exact fired_housed spaces address roots m housed event enabled quiet within tasks
  | nested _ _ _ _ _ after mode _ _ =>
      exact ⟨tasks, fun no => (by rw [mode] at no; cases no), fun _ no => (by rw [mode] at no; cases no),
        fun no => (by rw [mode] at no; cases no)⟩
  | resumed enabled source t taken down k mem frame outcome after resumed =>
      exact resumed_housed spaces roots m grounded housed event enabled source t taken down k mem frame outcome after resumed tasks
  | returned _ source t taken _ k outcome after returned =>
      refine ⟨tasks, fun no => (by rw [returned.mode] at no; cases no), fun _ no => (by rw [returned.mode] at no; cases no),
        fun _ => ?_⟩
      rw [returned.kernel]
      exact returns_condemned spaces m event source t taken k outcome
  | parked _ _ _ _ _ _ _ _ after mode _ _ =>
      exact ⟨tasks, fun no => (by rw [mode] at no; cases no), fun _ no => (by rw [mode] at no; cases no),
        fun no => (by rw [mode] at no; cases no)⟩

end

end Machine

namespace System

def roots (site : Site) : List UInt64 := [site.statics.userTables, site.statics.taskMem 0, site.statics.taskMem 1]

-- What holds in every state of the whole.
structure Sound (site : Site) (sys : System) : Prop where
  grounded : sys.console.machine.Grounded
  housed : sys.console.machine.Housed site.spaces.emptyRoot (roots site)
  todo : ∀ event ∈ sys.console.todo, event.Within (roots site)
  contained : ∃ made, Mmu.Contained site.layout made sys.mmu

section
variable (site : Site) (address : Static → UInt64) (sys : System)

theorem script_within (cmd : Command) (event : Event) (member : event ∈ cmd.script site.statics) : event.Within (roots site) := by
  cases cmd with
  | el0 program =>
      simp only [Command.script, List.mem_cons, List.not_mem_nil, or_false] at member
      rcases member with rfl | rfl
      · trivial
      · exact List.mem_cons_self
  | ticks =>
      simp only [Command.script, List.mem_cons, List.not_mem_nil, or_false] at member
      subst member
      trivial
  | scheduled demo a b =>
      cases event with
      | spawn args =>
          obtain ⟨slot, root, _⟩ := Console.script_own site.statics (.scheduled demo a b) args member
          have which : slot = 0 ∨ slot = 1 := by omega
          rcases which with rfl | rfl
          · rw [Event.Within, root, roots]
            exact List.mem_cons_of_mem _ List.mem_cons_self
          · rw [Event.Within, root, roots]
            exact List.mem_cons_of_mem _ (List.mem_cons_of_mem _ List.mem_cons_self)
      | dropUser root =>
          simp only [Command.script] at member
          split_ifs at member <;> simp at member
      | _ => trivial

theorem root_frame (root : UInt64) (member : root ∈ roots site) : ∃ j, j < 3 ∧ root.toNat = site.layout.frame j 0 := by
  simp only [roots, List.mem_cons, List.not_mem_nil, or_false] at member
  rcases member with rfl | rfl | rfl
  · exact ⟨0, by decide, site.user_tables⟩
  · exact ⟨1, by decide, site.task_mem 0⟩
  · exact ⟨2, by decide, site.task_mem 1⟩

theorem start_sound (cpu : Cpu) (mem : Mmu.Memory) (zeroed : Mmu.Zeroed site.layout mem) (user : Mmu.UserZeroed site.layout mem) :
    (start site cpu (site.layout.table 0) (Mmu.bootMemory site.layout mem)).Sound site where
  grounded := Machine.boot_grounded site.spaces cpu
  housed := ⟨fun _ live => absurd rfl live, fun no => (by cases no), fun _ no => (by cases no), fun _ => rfl⟩
  todo := fun event no => absurd no List.not_mem_nil
  contained := ⟨[], (Mmu.boot_contained site.layout mem zeroed user).agree _ rfl rfl⟩

variable (sound : sys.Sound site)
include sound

theorem machine_step (event : Event) (within : event.Within (roots site)) :
    (sys.console.machine.next site.spaces address event).Grounded ∧
      (sys.console.machine.next site.spaces address event).Housed site.spaces.emptyRoot (roots site) :=
  ⟨Machine.grounded_step site.spaces address _ sound.grounded event,
    Machine.housed_step site.spaces address _ _ sound.grounded sound.housed event within⟩

theorem proceed_step :
    (sys.console.proceed site.spaces address).machine.Grounded ∧
      (sys.console.proceed site.spaces address).machine.Housed site.spaces.emptyRoot (roots site) ∧
      ∀ event ∈ (sys.console.proceed site.spaces address).todo, event.Within (roots site) := by
  have todo := sound.todo
  have stopped : ∀ event ∈ ([] : List Event), event.Within (roots site) := fun event no => absurd no List.not_mem_nil
  unfold Console.proceed
  cases due : sys.console.todo with
  | nil =>
      exact ⟨sound.grounded, sound.housed, sound.todo⟩
  | cons event rest =>
      rw [due, List.forall_mem_cons] at todo
      obtain ⟨grounded, housed⟩ := machine_step site address sys sound event todo.1
      cases event with
      | arm =>
          dsimp only
          split_ifs
          · exact ⟨grounded, housed, todo.2⟩
          · exact ⟨sound.grounded, sound.housed, stopped⟩
      | drop unmask =>
          dsimp only
          split_ifs
          · exact ⟨grounded, housed, todo.2⟩
          · exact ⟨sound.grounded, sound.housed, stopped⟩
      | _ => exact ⟨grounded, housed, todo.2⟩

theorem console_step (input : Input) :
    (sys.console.step site.spaces address site.statics input).machine.Grounded ∧
      (sys.console.step site.spaces address site.statics input).machine.Housed site.spaces.emptyRoot (roots site) ∧
      ∀ event ∈ (sys.console.step site.spaces address site.statics input).todo, event.Within (roots site) := by
  have outside : ∀ event : Event, event.Within (roots site) →
      (sys.console.machine.next site.spaces address event).Grounded ∧
        (sys.console.machine.next site.spaces address event).Housed site.spaces.emptyRoot (roots site) ∧
        ∀ event ∈ sys.console.todo, event.Within (roots site) := fun event within =>
    have kept := machine_step site address sys sound event within
    ⟨kept.1, kept.2, sound.todo⟩
  unfold Console.step
  cases input with
  | command cmd =>
      dsimp only
      split_ifs
      · exact ⟨sound.grounded, sound.housed, script_within site cmd⟩
      · exact ⟨sound.grounded, sound.housed, sound.todo⟩
  | proceed =>
      dsimp only
      split_ifs
      · exact proceed_step site address sys sound
      · exact ⟨sound.grounded, sound.housed, sound.todo⟩
  | el1 t => exact outside (.el1 t) trivial
  | enter residue => exact outside (.enter residue) trivial
  | trap t => exact outside (.trap t) trivial

theorem built_contained (root : UInt64) (prog : Mmu.Image) :
    ∃ made, Mmu.Contained site.layout made { sys.mmu with mem := sys.built site root prog } := by
  obtain ⟨made, contained⟩ := sound.contained
  unfold built
  cases slot : site.slotOf root with
  | none => exact ⟨made, contained⟩
  | some k =>
      dsimp only
      cases builds : site.layout.buildAt sys.mem k prog with
      | none => exact ⟨made, contained⟩
      | some pair =>
          obtain ⟨k_small, rfl⟩ := Mmu.build_at_cases site.layout sys.mem k prog pair builds
          exact ⟨k :: made, Mmu.build_contained contained k k_small prog⟩

theorem mem_after_contained (input : Input) (prog : Mmu.Image) :
    ∃ made, Mmu.Contained site.layout made { sys.mmu with mem := sys.memAfter site input prog } := by
  unfold memAfter
  split
  · split_ifs
    · exact built_contained site sys sound _ prog
    · exact sound.contained
  · exact sound.contained

theorem mapped_sound (attr : Mmu.Attr) (pa : UInt64) :
    (sys.mapped (sys.mmu.ioremap site.layout attr (Mmu.physToVirt pa.toNat) pa.toNat).2).Sound site := by
  obtain ⟨made, contained⟩ := sound.contained
  have kept := Mmu.ioremap_contained contained attr pa.toNat pa.toNat_lt
  exact ⟨sound.grounded, sound.housed, sound.todo, made, kept.agree _ (contained.root.trans kept.root.symm) rfl⟩

theorem next_sound (move : Move) : (sys.next site address move).Sound site := by
  cases move with
  | input input prog =>
      obtain ⟨grounded, housed, todo⟩ := console_step site address sys sound input
      obtain ⟨made, contained⟩ := mem_after_contained site sys sound input prog
      exact ⟨grounded, housed, todo, made, contained.agree _ rfl rfl⟩
  | ioremapDevice pa => exact mapped_sound site sys sound .device pa
  | ioremapFramebuffer pa => exact mapped_sound site sys sound .framebuffer pa
  | store va byte =>
      rw [next]
      split_ifs with reaches
      · obtain ⟨made, contained⟩ := sound.contained
        obtain ⟨j, j_small, root⟩ := root_frame site _ (sound.housed.user reaches.1)
        have low : va.toNat < 2 ^ 48 := by
          have below_ := va.toNat_lt
          have top := reaches.2
          rw [Nat.shiftRight_eq_div_pow] at top
          omega
        refine ⟨sound.grounded, sound.housed, sound.todo, made, ?_⟩
        rw [root]
        exact Mmu.store_contained contained j j_small va.toNat low byte
      · exact sound

theorem sound_condemned (waiting : sys.console.accepts = true) : sys.Condemned site := by
  obtain ⟨made, contained⟩ := sound.contained
  simp only [Console.accepts, Bool.and_eq_true, decide_eq_true_eq] at waiting
  have register : sys.console.machine.kernel.ttbr0.toNat = site.layout.emptyRoot := by
    rw [sound.housed.monitor waiting.1, site.empty_root]
  have zero : ∀ i, i < 2048 → Mmu.readTable sys.mem site.layout.emptyRoot i = 0 :=
    fun i small => contained.words 5 i (by omega) small
  refine ⟨register, zero, fun va low => ?_⟩
  have root : site.layout.emptyRoot = site.layout.table 5 := rfl
  rw [Mmu.State.hardwareWalk, Mmu.State.walkWith, if_neg (by omega), if_pos low]
  change (Mmu.walkLevels _ sys.mem va 0 (Mmu.indices va)
    (sys.console.machine.kernel.ttbr0.toNat &&& 0x0000FFFFFFFFFFFE)).touched = _
  rw [register, root, Mmu.root_kept _ (Mmu.table_small site.layout 5 (by omega)) (Mmu.table_aligned site.layout 5),
    Mmu.indices_eq]
  have first := zero (va / 2 ^ 47 % 2) (by omega)
  rw [root, Mmu.readTable] at first
  rw [Mmu.walkLevels, if_neg (by decide), first]
  rfl

end

-- In every state in which the monitor waits for a command, nothing is mapped in
-- the low half.
theorem low_half_stays_condemned (site : Site) (address : Static → UInt64) (cpu : Cpu) (mmfr0 : Nat) (mem : Mmu.Memory)
    (root : Nat) (built : Mmu.Memory) (zeroed : Mmu.Zeroed site.layout mem) (user : Mmu.UserZeroed site.layout mem)
    (builds : Mmu.opalBuildTables site.layout 0 mmfr0 mem = some (root, built)) (moves : List Move) :
    Run.Always (next site address) (fun sys => sys.console.accepts = true → sys.Condemned site)
      (start site cpu root built) moves := by
  obtain ⟨rfl, rfl⟩ := Mmu.build_succeeds site.layout mmfr0 mem root built builds
  exact Run.always_of_invariant (next site address) (fun _ _ => True) (Sound site) _
    (fun sys move sound _ => next_sound site address sys sound move) (fun sys sound => sound_condemned site sys sound) _ moves
    (start_sound site cpu mem zeroed user) (Run.along_of_forall _ _ (fun _ _ => trivial) _ _)

def sampleSite : Site where
  layout := Mmu.sampleLayout
  spaces := ⟨fun _ _ => true, fun _ _ => true, 0x40294000⟩
  statics :=
    { taskMem := fun slot => if slot = 0 then 0x402D0000 else 0x402E8000
      kstackTop := fun slot => if slot = 0 then 0x40320000 else 0x40324000
      userTables := 0x402B8000
      mem_apart := by decide
      tables_apart := by decide
      stacks_apart := by decide
      mem_somewhere := by decide }
  empty_root := rfl
  user_tables := rfl
  task_mem := by decide

-- An el0 session up to its fault at a store to address 0, then a mapping call.
def faultSession : List Move :=
  [ .input (.command (.el0 Console.oneSvc)) ⟨[], Nat.zero_le _⟩, .input .proceed ⟨[], Nat.zero_le _⟩,
    .input .proceed ⟨[], Nat.zero_le _⟩, .input (.enter fun _ => 0) ⟨[], Nat.zero_le _⟩, .store 0 1,
    .input (.trap (Trap.fault userCodeVa)) ⟨[], Nat.zero_le _⟩, .ioremapDevice 0x1000000000 ]

theorem low_half_stays_condemned_sample :
    ∃ root built, Mmu.opalBuildTables Mmu.sampleLayout 0 0x100000 (fun _ => 0) = some (root, built) ∧
      Run.Always (next sampleSite fun _ => 0) (fun sys => sys.console.accepts = true → sys.Condemned sampleSite)
        (start sampleSite coldCpu root built) faultSession := by
  have builds := Mmu.build_tables Mmu.sampleLayout 0x100000 (fun _ => 0) (by decide)
  exact ⟨_, _, builds, low_half_stays_condemned sampleSite (fun _ => 0) coldCpu 0x100000 (fun _ => 0) _ _
    (fun _ _ _ => rfl) (fun _ _ _ _ _ _ => rfl) builds faultSession⟩

end System

end Opal
