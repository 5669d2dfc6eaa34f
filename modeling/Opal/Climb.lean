import Opal.BootStub

set_option autoImplicit false

namespace Opal

namespace Boot

open Mmu Straight

-- What linker.ld makes of the image: the stub and its literals first, the code
-- behind them, the canary in .rodata, the tables in .bss.
structure Env.Linked (env : Env) : Prop where
  stub : linkBase + 0x440 ≤ env.layout.textEnd
  pool : ∀ symbol, 4 * Boot.stub.length ≤ env.pool symbol ∧ env.pool symbol + 8 ≤ 0x440
  vectors : linkBase + 0x440 ≤ env.vectors ∧ env.vectors < env.layout.textEnd
  builder : linkBase + 0x440 ≤ env.opalBuildTables ∧ env.opalBuildTables < env.parked ∧ env.parked < env.layout.textEnd
  enabler : linkBase + 0x440 ≤ env.opalMmuEnable ∧ env.opalMmuEnable < env.enabled ∧ env.enabled < env.layout.textEnd
  apart : env.parked < env.opalMmuEnable ∨ env.enabled < env.opalBuildTables
  startRust : linkBase + 0x440 ≤ env.startRust ∧ env.startRust < env.layout.textEnd
  canary : env.layout.textEnd ≤ env.mmuCanary ∧ env.mmuCanary < env.layout.rodataEnd
  bss : env.layout.rodataEnd ≤ env.bssStart ∧ env.bssStart ≤ env.layout.tables ∧
    env.layout.tables + 14 * 2 ^ 14 ≤ env.bssEnd ∧ env.bssEnd ≤ env.layout.guardBottom
  bss_aligned : env.bssStart % 16 = 0 ∧ env.bssEnd % 16 = 0

-- A core that the loader has sent to the image it has put into memory.
structure Env.Entered (env : Env) (core : Core) : Prop where
  pc : core.pc = env.load
  mmu : core.root = none
  level : core.el = 1 ∨ core.el = 2
  pool : ∀ symbol, core.mem (env.load + env.pool symbol) = env.value symbol
  canary : core.mem (loadedAt env.load env.mmuCanary) = mmuCanaryValue

-- The next instruction is the stub's n-th one. The stub sees itself, and its
-- literals, where it was loaded.
structure Env.Here (env : Env) (n : Nat) (core : Core) : Prop where
  pc : core.pc = env.load + 4 * n
  sees : ∀ a, env.load ≤ a → a < env.load + 0x440 →
    ∃ rights, translation core.root core.mem a = some (a, rights) ∧ rights.el1Execute = true
  pool : ∀ symbol, core.mem (env.load + env.pool symbol) = env.value symbol

-- A run below the high half.
def Env.Climbs (env : Env) : Core → Core → Prop := env.machine.Through fun core => core.pc < 2 ^ 48

theorem Env.Climbs.trans {env : Env} {a b c : Core} (front : env.Climbs a b) (back : env.Climbs b c) : env.Climbs a c :=
  Machine.Through.trans front back

-- An instruction that goes on to the next one and writes no memory.
def Instr.plain : Instr → Bool
  | .word _ | .b _ | .bNe _ | .bEq _ | .cbz _ _ | .tbnz _ _ _ | .br _ | .blr _ | .eret | .strW _ _ | .stpZr _ => false
  | _ => true

theorem stub_length : stub.length = 111 := rfl

section
variable (env : Env)

theorem plain_keeps (base : Nat) (instr : Instr) (plain : instr.plain = true) (core after : Core)
    (executed : env.exec (.stub base instr) core = some after) :
    after.pc = core.pc + 4 ∧ after.root = core.root ∧ after.mem = core.mem := by
  cases instr
  all_goals simp only [Instr.plain, Bool.false_eq_true] at plain
  case ldrPool d symbol =>
      obtain ⟨found, _, rfl⟩ := Option.map_eq_some_iff.mp executed
      exact ⟨rfl, rfl, rfl⟩
  case ldr d n =>
      obtain ⟨found, _, rfl⟩ := Option.map_eq_some_iff.mp executed
      exact ⟨rfl, rfl, rfl⟩
  case mrs d reg =>
      rw [Env.exec, Option.ite_none_right_eq_some] at executed
      obtain ⟨_, same⟩ := executed
      cases same
      exact ⟨rfl, rfl, rfl⟩
  case msr reg s =>
      rw [Env.exec, Option.ite_none_right_eq_some] at executed
      obtain ⟨_, same⟩ := executed
      cases same
      exact ⟨rfl, rfl, rfl⟩
  case msrZr reg =>
      rw [Env.exec, Option.ite_none_right_eq_some] at executed
      obtain ⟨_, same⟩ := executed
      cases same
      exact ⟨rfl, rfl, rfl⟩
  all_goals
    cases executed
    exact ⟨rfl, rfl, rfl⟩

variable (linked : env.Linked) (loads : env.layout.Loads env.load)
include linked loads

omit linked in
theorem here_low (n : Nat) (core : Core) (pc : core.pc = env.load + 4 * n) (short : n < stub.length) : core.pc < 2 ^ 48 := by
  have high := loads.high
  have placed := env.layout.placed
  obtain ⟨top, bottom⟩ := And.intro placed.stack_top placed.stack_bottom
  obtain ⟨text, rodata, guard⟩ := And.intro env.layout.text_above (And.intro env.layout.rodata_above env.layout.guard_above)
  rw [stub_length] at short
  unfold linkBase at high
  omega

theorem fetch_stub (n : Nat) (instr : Instr) (core : Core) (here : env.Here n core) (found : stub[n]? = some instr) :
    env.fetch core = some (.stub env.load instr) := by
  have short : n < 111 := (List.getElem?_eq_some_iff.mp found).1
  obtain ⟨builder, enabler⟩ := And.intro linked.builder linked.enabler
  obtain ⟨rights, seen, executes⟩ := here.sees core.pc (by rw [here.pc]; omega) (by rw [here.pc]; omega)
  have high := loads.high
  have offset : core.pc - env.load = 4 * n := by rw [here.pc]; omega
  have index : 4 * n / 4 = n := by omega
  have base : (core.pc + (2 ^ 64 - 4 * n)) % 2 ^ 64 = env.load := by rw [here.pc]; omega
  have past : ∀ link, linkBase + 0x440 ≤ link → core.pc ≠ loadedAt env.load link := by
    intro link low same
    rw [loadedAt, here.pc] at same
    omega
  rw [Env.fetch, seen]
  dsimp only
  rw [if_pos executes, Env.codeAt, if_neg (past _ builder.1), if_neg (past _ (by omega)), if_neg (past _ enabler.1),
    if_neg (past _ (by omega)), offset, index, found, if_pos ⟨by rw [here.pc]; omega, by omega⟩, base]
  rfl

-- What a plain instruction does, a literal being what the linker has made it.
def evaluate : Instr → Core → Option Core
  | .ldrPool d symbol, core => some (core.setX d (env.value symbol))
  | instr, core => if instr.plain then env.exec (.stub env.load instr) core else none

omit loads in
theorem evaluate_exec (n : Nat) (instr : Instr) (core after : Core) (here : env.Here n core)
    (evaluated : evaluate env instr core = some after) :
    env.exec (.stub env.load instr) core = some after ∧ instr.plain = true := by
  cases instr
  case ldrPool d symbol =>
      obtain ⟨low, high⟩ := linked.pool symbol
      obtain ⟨rights, seen, _⟩ := here.sees (env.load + env.pool symbol) (by omega) (by omega)
      refine ⟨?_, rfl⟩
      rw [← evaluated, Env.exec, seen, Option.map_some, here.pool]
      rfl
  all_goals
    rw [evaluate, Option.ite_none_right_eq_some] at evaluated
    · exact evaluated.symm
    · simp

omit loads in
theorem onward_here (n : Nat) (instr : Instr) (core after : Core) (here : env.Here n core)
    (evaluated : evaluate env instr core = some after) :
    env.exec (.stub env.load instr) core = some after ∧ env.Here (n + 1) after := by
  obtain ⟨executed, plain⟩ := evaluate_exec env linked n instr core after here evaluated
  obtain ⟨pc, root, mem⟩ := plain_keeps env env.load instr plain core after executed
  refine ⟨executed, by rw [pc, here.pc]; omega, ?_, ?_⟩
  · rw [root, mem]
    exact here.sees
  · rw [mem]
    exact here.pool

theorem stub_straight (block : List Instr) (n : Nat) (core after : Core) (here : env.Here n core)
    (placed : (stub.drop n).take block.length = block)
    (runs : block.foldlM (fun core instr => evaluate env instr core) core = some after) :
    env.Climbs core after ∧ env.Here (n + block.length) after := by
  have run := env.machine.straight stub (.stub env.load) env.Here (evaluate env) ?_ ?_ block n core after here placed runs
  · refine ⟨run.1.weaken fun state there => ?_, run.2⟩
    obtain ⟨k, short, pc⟩ := there
    exact here_low env loads k state pc.pc short
  · intro n instr core here found
    exact fetch_stub env linked loads n instr core here found
  · exact onward_here env linked

theorem stub_step (n : Nat) (instr : Instr) (core after : Core) (here : env.Here n core) (found : stub[n]? = some instr)
    (executed : env.exec (.stub env.load instr) core = some after) : env.Climbs core after :=
  Machine.Through.one (here_low env loads n core here.pc (List.getElem?_eq_some_iff.mp found).1)
    (env.machine.step_fetched _ core after (fetch_stub env linked loads n instr core here found) executed)

omit linked loads in
theorem Env.Here.moved {env : Env} {n : Nat} {core : Core} (here : env.Here n core) (m : Nat) (after : Core)
    (pc : after.pc = env.load + 4 * m) (root : after.root = core.root) (mem : after.mem = core.mem) : env.Here m after := by
  refine ⟨pc, ?_, ?_⟩
  · rw [root, mem]
    exact here.sees
  · rw [mem]
    exact here.pool

-- Only registers and the flag differ.
structure Computed (core after : Core) : Prop where
  sp : after.sp = core.sp
  daif : after.daif = core.daif
  el : after.el = core.el
  sys : after.sys = core.sys
  root : after.root = core.root
  mem : after.mem = core.mem
  uart : after.uart = core.uart

omit linked loads in
theorem Computed.trans {a b c : Core} (front : Computed a b) (back : Computed b c) : Computed a c :=
  ⟨back.sp.trans front.sp, back.daif.trans front.daif, back.el.trans front.el, back.sys.trans front.sys,
    back.root.trans front.root, back.mem.trans front.mem, back.uart.trans front.uart⟩

-- In the stub, with nothing done yet but on registers.
structure Env.Quiet (env : Env) (before core : Core) : Prop where
  above : env.load ≤ core.pc
  below_ : core.pc < env.load + 0x440
  same : Computed before core

-- An instruction that changes registers only.
def Instr.quiet : Instr → Bool
  | .movToSp _ | .ldr _ _ | .mrs _ _ | .msr _ _ | .msrZr _ | .atS1e1r _ => false
  | instr => instr.plain

omit linked loads in
theorem quiet_computes (instr : Instr) (quiet : instr.quiet = true) (core after : Core)
    (evaluated : evaluate env instr core = some after) : Computed core after := by
  cases instr
  all_goals simp only [Instr.quiet, Instr.plain, Bool.false_eq_true] at quiet
  all_goals
    cases evaluated
    exact ⟨rfl, rfl, rfl, rfl, rfl, rfl, rfl⟩

omit linked loads in
theorem quiet_here (before core : Core) (n : Nat) (here : env.Here n core) (same : Computed before core)
    (short : n < stub.length) : env.Quiet before core := by
  have pc := here.pc
  rw [stub_length] at short
  exact ⟨by omega, by omega, same⟩

theorem quiet_straight (before : Core) (block : List Instr) (n : Nat) (core after : Core) (here : env.Here n core)
    (same : Computed before core) (placed : (stub.drop n).take block.length = block)
    (runs : block.foldlM (fun core instr => if instr.quiet then evaluate env instr core else none) core = some after) :
    env.machine.Through (env.Quiet before) core after ∧ env.Here (n + block.length) after ∧ Computed before after := by
  have run := env.machine.straight stub (.stub env.load) (fun n core => env.Here n core ∧ Computed before core)
    (fun instr core => if instr.quiet then evaluate env instr core else none) ?_ ?_ block n core after ⟨here, same⟩ placed runs
  · refine ⟨run.1.weaken fun state there => ?_, run.2.1, run.2.2⟩
    obtain ⟨k, short, here, same⟩ := there
    exact quiet_here env before state k here same short
  · intro n instr core here found
    exact fetch_stub env linked loads n instr core here.1 found
  · intro n instr core after here evaluated
    obtain ⟨quiet, evaluated⟩ := Option.ite_none_right_eq_some.mp evaluated
    obtain ⟨executed, there⟩ := onward_here env linked n instr core after here.1 evaluated
    exact ⟨executed, there, here.2.trans (quiet_computes env instr quiet core after evaluated)⟩

theorem quiet_step (before : Core) (n : Nat) (instr : Instr) (core after : Core) (here : env.Here n core)
    (same : Computed before core) (found : stub[n]? = some instr) (executed : env.exec (.stub env.load instr) core = some after) :
    env.machine.Through (env.Quiet before) core after :=
  Machine.Through.one (quiet_here env before core n here same (List.getElem?_eq_some_iff.mp found).1)
    (env.machine.step_fetched _ core after (fetch_stub env linked loads n instr core here found) executed)

def affinity (mpidr : Nat) : Nat := mpidr &&& 0xFF00FFFFFF

theorem start_dispatches (core : Core) (here : env.Here 0 core) : ∃ after, env.machine.Through (env.Quiet core) core after ∧
    env.Here (if affinity env.mpidr = 0 then 23 else 21) after ∧ Computed core after ∧ after.x 0 = core.x 0 := by
  have same : Computed core core := ⟨rfl, rfl, rfl, rfl, rfl, rfl, rfl⟩
  have jumped := quiet_step env linked loads core 0 (.b .start) core _ here same rfl rfl
  have at_start : env.Here 16 (core.jump env.load .start) := here.moved 16 _ rfl rfl rfl
  obtain ⟨middle, reached, there, same, x0, x1⟩ : ∃ middle,
      env.machine.Through (env.Quiet core) (core.jump env.load .start) middle ∧ env.Here 20 middle ∧ Computed core middle ∧
      middle.x 0 = core.x 0 ∧ middle.x 1 = affinity env.mpidr := by
    obtain ⟨reached, there, same⟩ := quiet_straight env linked loads core
      [.mrsMpidr 1, .movImm 2 0xffffff, .movk 2 0xff 32, .and 1 1 2] 16 _ _ at_start ⟨rfl, rfl, rfl, rfl, rfl, rfl, rfl⟩ rfl rfl
    exact ⟨_, reached, there, same, rfl, by simp [Core.setX, affinity]⟩
  have moved : ∀ pc, Computed core { middle with pc := pc } := fun _ =>
    ⟨same.sp, same.daif, same.el, same.sys, same.root, same.mem, same.uart⟩
  by_cases boot : affinity env.mpidr = 0
  · have taken := quiet_step env linked loads core 20 (.cbz 1 .core0) middle (middle.jump env.load .core0) there same rfl
      (congrArg some (if_pos (x1.trans boot)))
    rw [if_pos boot]
    exact ⟨_, (jumped.trans reached).trans taken, there.moved 23 _ rfl rfl rfl, moved _, x0⟩
  · have passed := quiet_step env linked loads core 20 (.cbz 1 .core0) middle middle.next there same rfl
      (congrArg some (if_neg (by rw [x1]; exact boot)))
    rw [if_neg boot]
    exact ⟨_, (jumped.trans reached).trans passed, there.moved 21 _ (by rw [Core.next, there.pc]) rfl rfl, moved _, x0⟩

-- What the climb keeps in the registers that its calls give back.
structure Env.Stashed (env : Env) (dtb : Nat) (core : Core) : Prop where
  dtb : core.x 19 = dtb
  base : core.x 21 = kernelBase
  load : core.x 22 = env.load
  delta : core.x 23 = bootDelta env.load

-- The loader's gift, the load address, its distance from the link address, and
-- the two copies of KERNEL_BASE.
theorem core0_stashes (before core : Core) (here : env.Here 23 core) (same : Computed before core) :
    ∃ after, env.machine.Through (env.Quiet before) core after ∧
      env.Here (if env.kernelVaBase = kernelBase then 31 else 109) after ∧ Computed before after ∧
      after.x 19 = core.x 0 ∧ after.x 22 = env.load ∧ after.x 23 = bootDelta env.load ∧ after.x 3 = kernelBase := by
  have low : linkBase = 0x40200000 := rfl
  obtain ⟨middle, reached, there, same, zero, x19, x22, x23, x3⟩ : ∃ middle,
      env.machine.Through (env.Quiet before) core middle ∧ env.Here 30 middle ∧ Computed before middle ∧
      middle.zero = decide (kernelBase = env.kernelVaBase) ∧
      middle.x 19 = core.x 0 ∧ middle.x 22 = env.load ∧ middle.x 23 = bootDelta env.load ∧ middle.x 3 = kernelBase := by
    obtain ⟨reached, there, same⟩ := quiet_straight env linked loads before [.mov 19 0, .adr 22 .imageStart,
      .ldrPool 23 .imageStart, .sub 23 22 23, .movImm 3 (0xFFFF <<< 48), .ldrPool 4 .kernelVaBase, .cmp 3 4] 23 _ _ here same
      rfl rfl
    refine ⟨_, reached, there, same, rfl, rfl, ?_, ?_, ?_⟩
    · simp [Core.setX, Core.next, show place .imageStart = 0 from rfl]
    · simp [Core.setX, Core.next, show place .imageStart = 0 from rfl, bootDelta, Env.value, low]
    · simp [Core.setX, Core.next, kernelBase]
  have moved : ∀ pc, Computed before { middle with pc := pc } := fun _ =>
    ⟨same.sp, same.daif, same.el, same.sys, same.root, same.mem, same.uart⟩
  by_cases agree : env.kernelVaBase = kernelBase
  · have passed := quiet_step env linked loads before 30 (.bNe .halt) middle middle.next there same rfl
      (congrArg some (if_pos (by rw [zero, agree]; exact decide_eq_true rfl)))
    rw [if_pos agree]
    exact ⟨_, reached.trans passed, there.moved 31 _ (by rw [Core.next, there.pc]) rfl rfl, moved _, x19, x22, x23, x3⟩
  · have taken := quiet_step env linked loads before 30 (.bNe .halt) middle (middle.jump env.load .halt) there same rfl
      (congrArg some (if_neg (by rw [zero]; exact fun same => agree (of_decide_eq_true same).symm)))
    rw [if_neg agree]
    exact ⟨_, reached.trans taken, there.moved 109 _ rfl rfl rfl, moved _, x19, x22, x23, x3⟩

omit linked in
theorem relocated (link : Nat) (above : linkBase ≤ link) (below_ : link ≤ env.layout.stackTop) :
    ((kernelBase + link + (2 ^ 64 - kernelBase)) % 2 ^ 64 + bootDelta env.load) % 2 ^ 64 = loadedAt env.load link := by
  have placed := env.layout.placed
  have fits := placed.fits
  obtain ⟨top, bottom⟩ := And.intro placed.stack_top placed.stack_bottom
  have high := loads.high
  have base : kernelBase = 0xFFFF000000000000 := rfl
  have first : linkBase = 0x40200000 := rfl
  unfold bootDelta loadedAt
  omega

omit linked loads in
theorem text_bounds (link : Nat) (text : linkBase + 0x440 ≤ link ∧ link < env.layout.textEnd) :
    linkBase ≤ link ∧ link ≤ env.layout.stackTop := by
  have placed := env.layout.placed
  obtain ⟨top, bottom⟩ := And.intro placed.stack_top placed.stack_bottom
  obtain ⟨rodata, guard⟩ := And.intro env.layout.rodata_above env.layout.guard_above
  unfold linkBase at text ⊢
  omega

-- The three instructions that find out where a symbol has been loaded.
theorem literal_relocates (n : Nat) (d : Fin 31) (symbol : Symbol) (link : Nat) (core : Core) (here : env.Here n core)
    (placed : (stub.drop n).take 3 = [.ldrPool d symbol, .sub d d 21, .add d d 23])
    (value : env.value symbol = kernelBase + link) (above : linkBase ≤ link) (below_ : link ≤ env.layout.stackTop)
    (spare : d ≠ 21 ∧ d ≠ 23) (x21 : core.x 21 = kernelBase) (x23 : core.x 23 = bootDelta env.load) :
    env.Climbs core { core with pc := core.pc + 12, x := Function.update core.x d (loadedAt env.load link) } ∧
      env.Here (n + 3) { core with pc := core.pc + 12, x := Function.update core.x d (loadedAt env.load link) } := by
  refine stub_straight env linked loads [.ldrPool d symbol, .sub d d 21, .add d d 23] n core _ here placed ?_
  have moved : (kernelBase + link + (2 ^ 64 - kernelBase) + bootDelta env.load) % 2 ^ 64 = loadedAt env.load link := by
    rw [← Nat.mod_add_mod]
    exact relocated env loads link above below_
  simp [evaluate, Instr.plain, Env.exec, Core.setX, Ne.symm spare.1, Ne.symm spare.2, x21, x23, value]
  exact congrArg (Function.update core.x d) moved

theorem el2_configures (core : Core) (here : env.Here 37 core) (hypervisor : core.el = 2) (x21 : core.x 21 = kernelBase)
    (x23 : core.x 23 = bootDelta env.load) : ∃ after, env.Climbs core after ∧ env.Here 51 after ∧
      after.el = 2 ∧ after.root = core.root ∧ after.mem = core.mem ∧ after.uart = core.uart ∧
      after.sys .hcrEl2 = 1 <<< 31 ∧ after.sys .cntvoffEl2 = 0 ∧ after.sys .vbarEl2 = loadedAt env.load env.vectors ∧
      after.sys .spsrEl2 = 0x3C5 ∧ after.sys .elrEl2 = env.load + 4 * 52 ∧ ∀ i, i ≠ 9 → after.x i = core.x i := by
  obtain ⟨above, below_⟩ := text_bounds env env.vectors linked.vectors
  obtain ⟨found, at_msr⟩ := literal_relocates env linked loads 37 9 .vectors env.vectors core here rfl rfl above below_
    ⟨by decide, by decide⟩ x21 x23
  cases core with
  | mk pc x sp zero daif el sys root mem uart =>
      cases hypervisor
      obtain ⟨reached, there⟩ := stub_straight env linked loads
        [.msr .vbarEl2 9, .movImm 9 (0x8000 <<< 16), .movk 9 0 0,
          .msr .hcrEl2 9, .movImm 9 1, .msr .cnthctlEl2 9, .msrZr .cntvoffEl2, .movImm 9 0x3C5, .msr .spsrEl2 9,
          .adr 9 .el1Entry, .msr .elrEl2 9] 40 _ _ at_msr rfl rfl
      refine ⟨_, found.trans reached, there, rfl, rfl, rfl, rfl, ?_, ?_, ?_, ?_, ?_, ?_⟩
      · simp [Core.setX, Core.setSys]
      · simp [Core.setX, Core.setSys]
      · simp [Core.setX, Core.setSys]
      · simp [Core.setX, Core.setSys]
      · simp [Core.setX, Core.setSys, show place .el1Entry = 52 from rfl]
      · intro i other
        simp [Core.setX, Core.setSys, other]

-- At EL1 with what the stub configures of EL2 behind it, or as before.
structure Env.Dropped (env : Env) (core after : Core) : Prop where
  el : after.el = 1
  root : after.root = core.root
  mem : after.mem = core.mem
  uart : after.uart = core.uart
  stays : core.el = 1 → after.daif = core.daif ∧ after.sys = core.sys
  drops : core.el = 2 → after.daif = 0xF ∧ after.sys .hcrEl2 = 1 <<< 31 ∧ after.sys .cntvoffEl2 = 0 ∧
    after.sys .vbarEl2 = loadedAt env.load env.vectors

theorem core0_drops (core : Core) (here : env.Here 31 core) (x3 : core.x 3 = kernelBase) (x22 : core.x 22 = env.load)
    (x23 : core.x 23 = bootDelta env.load) (level : core.el = 1 ∨ core.el = 2) : ∃ after, env.Climbs core after ∧
      env.Here 52 after ∧ env.Dropped core after ∧ env.Stashed (core.x 19) after := by
  obtain ⟨middle, reached, there, same, zero, stashed⟩ : ∃ middle, env.Climbs core middle ∧ env.Here 36 middle ∧
      Computed core middle ∧ middle.zero = decide (core.el <<< 2 >>> 2 &&& 3 = 2) ∧ env.Stashed (core.x 19) middle := by
    obtain ⟨reached, there⟩ := stub_straight env linked loads
      [.mov 21 3, .mrsCurrentEl 1, .lsr 1 1 2, .andImm 1 1 3, .cmpImm 1 2] 31 _ _ here rfl rfl
    exact ⟨_, reached, there, ⟨rfl, rfl, rfl, rfl, rfl, rfl, rfl⟩, rfl, ⟨rfl, x3, x22, x23⟩⟩
  rcases level with kernel | hypervisor
  · have taken := stub_step env linked loads 36 (.bNe .el1Entry) middle (middle.jump env.load .el1Entry) there rfl
      (congrArg some (if_neg (by rw [zero, kernel]; decide)))
    exact ⟨_, reached.trans taken, there.moved 52 _ rfl rfl rfl,
      ⟨same.el.trans kernel, same.root, same.mem, same.uart, fun _ => ⟨same.daif, same.sys⟩,
        fun other => absurd (kernel.symm.trans other) (by decide)⟩, ⟨stashed.dtb, stashed.base, stashed.load, stashed.delta⟩⟩
  · have passed := stub_step env linked loads 36 (.bNe .el1Entry) middle middle.next there rfl
      (congrArg some (if_pos (by rw [zero, hypervisor]; decide)))
    have at_drop : env.Here 37 middle.next := there.moved 37 _ (by rw [Core.next, there.pc]) rfl rfl
    obtain ⟨low, configured, at_eret, el, root, mem, uart, hcr, cntvoff, vbar, spsr, elr, kept⟩ :=
      el2_configures env linked loads middle.next at_drop (same.el.trans hypervisor) stashed.base stashed.delta
    have dropped := stub_step env linked loads 51 .eret low
      { low with pc := low.sys .elrEl2, el := 1, daif := low.sys .spsrEl2 >>> 6 % 16 } at_eret rfl
      (if_pos ⟨el, by rw [spsr], by rw [hcr]; decide⟩)
    refine ⟨_, ((reached.trans passed).trans configured).trans dropped, at_eret.moved 52 _ elr rfl rfl,
      ⟨rfl, root.trans same.root, mem.trans same.mem, uart.trans same.uart, fun other => absurd (hypervisor.symm.trans other) (by decide),
        fun _ => ⟨by dsimp only; rw [spsr]; rfl, hcr, cntvoff, vbar⟩⟩, ?_⟩
    exact ⟨(kept 19 (by decide)).trans stashed.dtb, (kept 21 (by decide)).trans stashed.base,
      (kept 22 (by decide)).trans stashed.load, (kept 23 (by decide)).trans stashed.delta⟩

theorem el1_prepares (core : Core) (dtb : Nat) (here : env.Here 52 core) (stashed : env.Stashed dtb core) :
    ∃ after, env.Climbs core after ∧ env.Here 62 after ∧ env.Stashed dtb after ∧
      Computed { core with sp := loadedAt env.load env.layout.stackTop } after ∧
      after.x 1 = loadedAt env.load env.bssStart ∧ after.x 2 = loadedAt env.load env.bssEnd := by
  obtain ⟨rodata, tables, fits, guard⟩ := linked.bss
  have placed := env.layout.placed
  obtain ⟨top, bottom⟩ := And.intro placed.stack_top placed.stack_bottom
  obtain ⟨text, above⟩ := And.intro env.layout.text_above env.layout.rodata_above
  obtain ⟨to_stack, at_stack⟩ := literal_relocates env linked loads 52 1 .stackTop env.layout.stackTop core here rfl rfl
    (by unfold linkBase; omega) (le_refl _) ⟨by decide, by decide⟩ stashed.base stashed.delta
  obtain ⟨set_stack, behind⟩ := stub_straight env linked loads [.movToSp 1] 55 _ _ at_stack rfl rfl
  obtain ⟨to_start, at_start⟩ := literal_relocates env linked loads 56 1 .bssStart env.bssStart _ behind rfl rfl
    (by unfold linkBase; omega) (by omega) ⟨by decide, by decide⟩ stashed.base stashed.delta
  obtain ⟨to_end, at_end⟩ := literal_relocates env linked loads 59 2 .bssEnd env.bssEnd _ at_start rfl rfl
    (by unfold linkBase; omega) (by omega) ⟨by decide, by decide⟩ stashed.base stashed.delta
  exact ⟨_, ((to_stack.trans set_stack).trans to_start).trans to_end, at_end,
    ⟨stashed.dtb, stashed.base, stashed.load, stashed.delta⟩, ⟨rfl, rfl, rfl, rfl, rfl, rfl, rfl⟩, rfl, rfl⟩

-- .bss is clear up to the cursor, with n rounds to go.
structure Env.Clearing (env : Env) (before : Core) (n : Nat) (core : Core) : Prop where
  here : env.Here 62 core
  cursor : core.x 1 + 16 * n = loadedAt env.load env.bssEnd
  last : core.x 2 = loadedAt env.load env.bssEnd
  mem : ∀ a, core.mem a = if loadedAt env.load env.bssStart ≤ a ∧ a < core.x 1 then 0 else before.mem a
  started : loadedAt env.load env.bssStart ≤ core.x 1
  kept : ∀ i, i ≠ 1 → core.x i = before.x i
  same : core.sp = before.sp ∧ core.daif = before.daif ∧ core.el = before.el ∧ core.sys = before.sys ∧
    core.uart = before.uart
  mmu : core.root = none

theorem bss_bounds : env.load + 0x440 ≤ loadedAt env.load env.bssStart ∧
    loadedAt env.load env.bssStart ≤ loadedAt env.load env.layout.tables ∧
    loadedAt env.load env.layout.tables + 14 * 2 ^ 14 ≤ loadedAt env.load env.bssEnd ∧
    loadedAt env.load env.bssEnd ≤ loadedAt env.load env.layout.stackBottom ∧
    loadedAt env.load env.layout.stackTop = loadedAt env.load env.layout.stackBottom + 2 ^ 16 ∧
    loadedAt env.load env.layout.stackTop ≤ 2 ^ 48 := by
  obtain ⟨rodata, tables, fits, guard⟩ := linked.bss
  have placed := env.layout.placed
  obtain ⟨top, bottom⟩ := And.intro placed.stack_top placed.stack_bottom
  have text := linked.stub
  have above := env.layout.rodata_above
  have high := loads.high
  unfold loadedAt
  unfold linkBase at text high ⊢
  omega

theorem bss_compares (core : Core) (here : env.Here 62 core) (done : Bool) (flag : decide (core.x 1 = core.x 2) = done) :
    env.Climbs core { core with pc := env.load + 4 * (if done then 66 else 64), zero := done } ∧
      env.Here (if done then 66 else 64) { core with pc := env.load + 4 * (if done then 66 else 64), zero := done } := by
  obtain ⟨compared, at_branch⟩ := stub_straight env linked loads [.cmp 1 2] 62 core
    { core with pc := core.pc + 4, zero := done } here rfl (by rw [← flag]; rfl)
  have branched := stub_step env linked loads 63 (.bEq .bssDone) _
    { core with pc := env.load + 4 * (if done then 66 else 64), zero := done } at_branch rfl (by
      cases done with
      | true => rfl
      | false => simp [Env.exec, Core.next, here.pc])
  exact ⟨compared.trans branched, here.moved _ _ rfl rfl rfl⟩

-- What a round leaves.
def Env.cleared (env : Env) (core : Core) : Core :=
  { core with
    pc := env.load + 4 * 62
    x := Function.update core.x 1 (core.x 1 + 16)
    zero := false
    mem := fun a => if core.x 1 ≤ a ∧ a < core.x 1 + 16 then 0 else core.mem a }

theorem bss_round (before : Core) (n : Nat) (core : Core) (clearing : env.Clearing before (n + 1) core) :
    ∃ after, env.Climbs core after ∧ env.Clearing before n after := by
  obtain ⟨here, cursor, last, mem, started, kept, same, mmu⟩ := clearing
  obtain ⟨low, tables, fits, end_, top, high⟩ := bss_bounds env linked loads
  obtain ⟨compared, at_store⟩ := bss_compares env linked loads core here false (decide_eq_false (by omega))
  have small : (core.x 1 + 16) % 2 ^ 64 = core.x 1 + 16 := by omega
  have there : ∀ n : Nat, env.Here n { env.cleared core with pc := env.load + 4 * n } := by
    refine fun n => ⟨rfl, ?_, fun symbol => ?_⟩
    · intro a _ _
      refine ⟨flat, ?_, rfl⟩
      simp only [Env.cleared, mmu, translation]
    · have bound := (linked.pool symbol).2
      rw [← here.pool symbol]
      exact if_neg (by omega)
  have stores := stub_step env linked loads 64 (.stpZr 1) _ { env.cleared core with pc := env.load + 4 * 65 } at_store rfl (by
    simp only [Env.exec, Env.cleared, translation, mmu, flat, Core.setX, Option.bind_some, if_true, small]
    rfl)
  have back := stub_step env linked loads 65 (.b .bssClear) _ (env.cleared core) (there 65) rfl rfl
  have moved : (env.cleared core).x 1 = core.x 1 + 16 := Function.update_self 1 _ core.x
  refine ⟨_, (compared.trans stores).trans back, there 62, ?_, last, fun a => ?_, ?_, fun i other => ?_, same, mmu⟩
  · rw [moved, ← cursor]
    omega
  · rw [moved]
    by_cases now : core.x 1 ≤ a ∧ a < core.x 1 + 16
    · exact (if_pos now).trans (if_pos ⟨by omega, now.2⟩).symm
    · refine (if_neg now).trans ((mem a).trans ?_)
      by_cases past : loadedAt env.load env.bssStart ≤ a ∧ a < core.x 1
      · rw [if_pos past, if_pos ⟨past.1, by omega⟩]
      · rw [if_neg past, if_neg (by omega)]
  · rw [moved]
    omega
  · rw [← kept i other]
    exact Function.update_of_ne other ..

def Env.blank (env : Env) (mem : Memory) : Memory :=
  fun a => if loadedAt env.load env.bssStart ≤ a ∧ a < loadedAt env.load env.bssEnd then 0 else mem a

theorem bss_clears (core : Core) (dtb : Nat) (here : env.Here 62 core) (stashed : env.Stashed dtb core)
    (mmu : core.root = none) (x1 : core.x 1 = loadedAt env.load env.bssStart) (x2 : core.x 2 = loadedAt env.load env.bssEnd) :
    ∃ after, env.Climbs core after ∧ env.Here 66 after ∧ env.Stashed dtb after ∧
      Computed { core with mem := env.blank core.mem } after := by
  obtain ⟨low, tables, fits, end_, top, high⟩ := bss_bounds env linked loads
  have aligned := linked.bss_aligned
  have rounds : core.x 1 + 16 * ((env.bssEnd - env.bssStart) / 16) = loadedAt env.load env.bssEnd := by
    obtain ⟨rodata, first, last, _⟩ := linked.bss
    have text := linked.stub
    have above := env.layout.rodata_above
    rw [x1]
    unfold loadedAt
    unfold linkBase at text ⊢
    omega
  have initial : env.Clearing core ((env.bssEnd - env.bssStart) / 16) core := by
    refine ⟨here, rounds, x2, fun a => ?_, by rw [x1], fun _ _ => rfl, ⟨rfl, rfl, rfl, rfl, rfl⟩, mmu⟩
    rw [if_neg (by omega)]
  obtain ⟨done, cleared, ⟨here, cursor, last, mem, _, kept, same, mmu'⟩⟩ :=
    Machine.Through.rounds env.machine _ (env.Clearing core) (bss_round env linked loads core) _ core initial
  obtain ⟨left, there⟩ := bss_compares env linked loads done here true (decide_eq_true (by omega))
  refine ⟨_, cleared.trans left, there, ?_, same.1, same.2.1, same.2.2.1, same.2.2.2.1, mmu'.trans mmu.symm, ?_, same.2.2.2.2⟩
  · exact ⟨(kept 19 (by decide)).trans stashed.dtb, (kept 21 (by decide)).trans stashed.base,
      (kept 22 (by decide)).trans stashed.load, (kept 23 (by decide)).trans stashed.delta⟩
  · funext a
    rw [Nat.mul_zero, Nat.add_zero] at cursor
    dsimp only
    rw [mem a, cursor, Env.blank]

end

end Boot

end Opal
