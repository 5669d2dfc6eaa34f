import Opal.Climb

set_option autoImplicit false

namespace Opal

namespace Mmu

theorem write_loop_local (start upto : Nat) (word : Nat → Option (Nat × Nat)) (mem other : Memory) (a : Nat)
    (same : mem a = other a) : writeLoop start upto word mem a = writeLoop start upto word other a := by
  unfold writeLoop
  generalize List.range' start (upto - start) = rounds
  induction rounds generalizing mem other with
  | nil => exact same
  | cons i rest ih =>
      rw [List.foldl_cons, List.foldl_cons]
      apply ih
      cases word i with
      | none => exact same
      | some pair =>
          simp only [store, Function.update_apply]
          rw [same]

theorem tree_memory_local (base : Nat) (page : Nat → Option Nat) (mem other : Memory) (a : Nat) (same : mem a = other a) :
    treeMemory base page mem a = treeMemory base page other a := by
  have stored : ∀ (m m' : Memory) (pa desc : Nat), m a = m' a → store m pa desc a = store m' pa desc a := by
    intro m m' pa desc same
    simp only [store, Function.update_apply]
    rw [same]
  unfold treeMemory
  apply stored
  apply stored
  apply stored
  apply write_loop_local
  apply stored
  apply stored
  apply write_loop_local
  apply write_loop_local
  apply stored
  apply write_loop_local
  exact same

section
variable (layout : Layout) (load : Nat) (loads : layout.Loads load) (displaced : load ≠ linkBase) (mem : Memory)
  (zeroed : ∀ a, tableAt (loadedAt load layout.tables) 0 ≤ a → a < tableAt (loadedAt load layout.tables) 14 → mem a = 0)
include loads displaced zeroed

end

end Mmu

namespace Boot

open Mmu Straight

-- The tree in its tables.
def Env.treed (env : Env) (mem : Memory) : Memory :=
  treeMemory (loadedAt env.load env.layout.tables) (loadedPage env.layout (bootDelta env.load)) mem

section
variable (env : Env) (linked : env.Linked) (loads : env.layout.Loads env.load)
include linked loads

theorem scribbled_treed (scratch : Scratch) (sp : Nat) (mem : Memory) :
    env.scribbled scratch sp (env.treed mem) = env.treed (env.scribbled scratch sp mem) := by
  obtain ⟨low, tables, fits, end_, top, high⟩ := bss_bounds env linked loads
  funext a
  by_cases inStack : loadedAt env.load env.layout.stackBottom ≤ a ∧ a < sp
  · have outside := tree_memory_outside (loadedAt env.load env.layout.tables) (loadedPage env.layout (bootDelta env.load))
      (env.scribbled scratch sp mem) a (.inr (by unfold tableAt; omega))
    rw [Env.treed, Env.treed, outside, Env.scribbled, Env.scribbled, if_pos inStack, if_pos inStack]
  · rw [Env.scribbled, if_neg inStack]
    exact tree_memory_local _ _ _ _ a (if_neg inStack).symm

omit loads in
theorem routines : ∀ pc, env.codeAt (loadedAt env.load env.opalBuildTables) pc = some .opalBuildTables ∧
    env.codeAt (loadedAt env.load env.parked) pc = some .parked ∧
    env.codeAt (loadedAt env.load env.opalMmuEnable) pc = some .opalMmuEnable ∧
    env.codeAt (loadedAt env.load env.enabled) pc = some .enabled := by
  intro pc
  obtain ⟨⟨builder, parked, _⟩, enabler, enabled, _⟩ := And.intro linked.builder linked.enabler
  have apart := linked.apart
  have other : ∀ a b, linkBase + 0x440 ≤ a → linkBase + 0x440 ≤ b → a ≠ b → loadedAt env.load a ≠ loadedAt env.load b := by
    unfold loadedAt
    omega
  refine ⟨if_pos rfl, ?_, ?_, ?_⟩
  · rw [Env.codeAt, if_neg (other _ _ (by omega) (by omega) (by omega)), if_pos rfl]
  · rw [Env.codeAt, if_neg (other _ _ (by omega) (by omega) (by omega)),
      if_neg (other _ _ (by omega) (by omega) (by omega)), if_pos rfl]
  · rw [Env.codeAt, if_neg (other _ _ (by omega) (by omega) (by omega)),
      if_neg (other _ _ (by omega) (by omega) (by omega)), if_neg (other _ _ (by omega) (by omega) (by omega)), if_pos rfl]

omit linked loads in
theorem fetched_flat (core : Core) (mmu : core.root = none) : env.fetch core = env.codeAt core.pc core.pc := by
  rw [Env.fetch, mmu]
  rfl

omit linked in
theorem routine_step (link : Nat) (text : linkBase + 0x440 ≤ link ∧ link < env.layout.textEnd) (core after : Core)
    (pc : core.pc = loadedAt env.load link) (routine : Fetched) (fetched : env.fetch core = some routine)
    (executed : env.exec routine core = some after) : env.Climbs core after := by
  refine Machine.Through.one ?_ (env.machine.step_fetched routine core after fetched executed)
  have placed := env.layout.placed
  obtain ⟨top, bottom⟩ := And.intro placed.stack_top placed.stack_bottom
  obtain ⟨rodata, guard⟩ := And.intro env.layout.rodata_above env.layout.guard_above
  have high := loads.high
  rw [pc, loadedAt]
  unfold linkBase at text high ⊢
  omega

theorem builder_called (core : Core) (dtb : Nat) (here : env.Here 66 core) (stashed : env.Stashed dtb core) :
    ∃ after, env.Climbs core after ∧ after.pc = loadedAt env.load env.opalBuildTables ∧
      env.Stashed dtb after ∧ after.x 0 = bootDelta env.load ∧ after.x 30 = env.load + 4 * 71 ∧ Computed core after := by
  obtain ⟨above, below_⟩ := text_bounds env env.opalBuildTables ⟨linked.builder.1, linked.builder.2.1.trans linked.builder.2.2⟩
  obtain ⟨found, at_mov⟩ := literal_relocates env linked loads 66 9 .opalBuildTables env.opalBuildTables core here rfl rfl
    above below_ ⟨by decide, by decide⟩ stashed.base stashed.delta
  obtain ⟨passed, at_blr⟩ := stub_straight env linked loads [.mov 0 23] 69 _ _ at_mov rfl rfl
  have called := stub_step env linked loads 70 (.blr 9) _ _ at_blr rfl rfl
  refine ⟨_, (found.trans passed).trans called, rfl, ⟨stashed.dtb, stashed.base, stashed.load, stashed.delta⟩,
    stashed.delta, ?_, ⟨rfl, rfl, rfl, rfl, rfl, rfl, rfl⟩⟩
  exact congrArg (· + 4) at_blr.pc

def Env.built (env : Env) (core : Core) : Core :=
  let back := env.returned env.builder { core with mem := env.treed core.mem }
  { back with x := Function.update back.x 0 (tableAt (loadedAt env.load env.layout.tables) 0) }

-- The builder leaves the tree, and what it likes in the registers and the stack
-- that are its own.
theorem builder_builds (core : Core) (dtb : Nat) (pc : core.pc = loadedAt env.load env.opalBuildTables)
    (stashed : env.Stashed dtb core) (x0 : core.x 0 = bootDelta env.load) (x30 : core.x 30 = env.load + 4 * 71)
    (mmu : core.root = none) (pool : ∀ symbol, core.mem (env.load + env.pool symbol) = env.value symbol)
    (present : env.mmfr0 >>> 20 &&& 0xF ≠ 0) :
    ∃ after, env.Climbs core after ∧ env.Here 71 after ∧ env.Stashed dtb after ∧
      after.x 0 = tableAt (loadedAt env.load env.layout.tables) 0 ∧
      Computed { core with mem := env.treed (env.scribbled env.builder core.sp core.mem) } after := by
  obtain ⟨loaded, small, aligned⟩ := tables_loaded env.layout env.load loads
  obtain ⟨low, tables, fits, end_, top, high⟩ := bss_bounds env linked loads
  have built := build_tree env.layout (bootDelta env.load) env.mmfr0 core.mem present _ loaded
    (Nat.lt_of_le_of_lt small (by decide))
  have fetched : env.fetch core = some .opalBuildTables := by
    rw [fetched_flat env core mmu, pc]
    exact (routines env linked _).1
  have text := And.intro linked.builder.1 (linked.builder.2.1.trans linked.builder.2.2)
  have returns := routine_step env loads env.opalBuildTables text core (env.built core) pc .opalBuildTables fetched (by
    rw [Env.exec, x0, built]
    rfl)
  have mem : (env.built core).mem = env.scribbled env.builder core.sp (env.treed core.mem) := by
    simp only [Env.built, Env.returned]
  have result : (env.built core).x 0 = tableAt (loadedAt env.load env.layout.tables) 0 := by
    simp only [Env.built, Function.update_self]
  have root : (env.built core).root = none := mmu
  refine ⟨_, returns, ⟨x30, ?_, fun symbol => ?_⟩, ⟨stashed.dtb, stashed.base, stashed.load, stashed.delta⟩,
    result, ⟨rfl, rfl, rfl, rfl, rfl, ?_, rfl⟩⟩
  · intro a _ _
    rw [root]
    exact ⟨flat, rfl, rfl⟩
  · have bound := (linked.pool symbol).2
    have outside : env.treed core.mem (env.load + env.pool symbol) = core.mem (env.load + env.pool symbol) :=
      tree_memory_outside _ _ _ _ (.inl (by unfold tableAt; omega))
    rw [mem, Env.scribbled, if_neg (by omega), outside]
    exact pool symbol
  · rw [mem]
    exact scribbled_treed env linked loads env.builder core.sp core.mem

theorem enabler_called (core : Core) (dtb : Nat) (here : env.Here 71 core) (stashed : env.Stashed dtb core) :
    ∃ after, env.Climbs core after ∧ after.pc = loadedAt env.load env.opalMmuEnable ∧ env.Stashed dtb after ∧
      after.x 0 = core.x 0 ∧ after.x 30 = env.load + 4 * 82 ∧
      Computed { core with sys := Function.update core.sys .vbarEl1 (loadedAt env.load env.vectors) } after := by
  obtain ⟨above, below_⟩ := text_bounds env env.vectors linked.vectors
  obtain ⟨first, last⟩ := text_bounds env env.opalMmuEnable ⟨linked.enabler.1, linked.enabler.2.1.trans linked.enabler.2.2⟩
  obtain ⟨stashes, at_vectors⟩ := stub_straight env linked loads [.mov 20 0] 71 _ _ here rfl rfl
  obtain ⟨found, at_msr⟩ := literal_relocates env linked loads 72 9 .vectors env.vectors _ at_vectors rfl rfl
    above below_ ⟨by decide, by decide⟩ stashed.base stashed.delta
  obtain ⟨armed, at_enable⟩ := stub_straight env linked loads [.msr .vbarEl1 9, .isb, .mov 0 20] 75 _ _ at_msr rfl rfl
  obtain ⟨located, at_blr⟩ := literal_relocates env linked loads 78 9 .opalMmuEnable env.opalMmuEnable _ at_enable rfl rfl
    first last ⟨by decide, by decide⟩ stashed.base stashed.delta
  have called := stub_step env linked loads 81 (.blr 9) _ _ at_blr rfl rfl
  refine ⟨_, (((stashes.trans found).trans armed).trans located).trans called, rfl,
    ⟨stashed.dtb, stashed.base, stashed.load, stashed.delta⟩, rfl, ?_, ⟨rfl, rfl, rfl, rfl, rfl, rfl, rfl⟩⟩
  exact congrArg (· + 4) at_blr.pc

theorem enabler_enables (core : Core) (pc : core.pc = loadedAt env.load env.opalMmuEnable) (mmu : core.root = none) :
    env.Climbs core { core with root := some (core.x 0), pc := loadedAt env.load env.enabled } := by
  have text := And.intro linked.enabler.1 (linked.enabler.2.1.trans linked.enabler.2.2)
  refine routine_step env loads env.opalMmuEnable text core _ pc .opalMmuEnable ?_ rfl
  rw [fetched_flat env core mmu, pc]
  exact (routines env linked _).2.2.1

omit linked loads in
theorem linked_boots (at_link : env.load = linkBase) (mem : Memory)
    (blank : ∀ a, loadedAt env.load env.layout.tables ≤ a → a < loadedAt env.load env.layout.tables + Layout.tablesLen → mem a = 0) :
    Boots env.layout env.layout.textEnd env.load
      (Mmu.opalMmuEnable (tableAt (loadedAt env.load env.layout.tables) 0) (env.treed mem)) := by
  have placed := env.layout.placed
  have fits : env.layout.Fits linkBase := by
    refine ⟨by decide, by decide, ?_⟩
    have image_fits := placed.fits
    obtain ⟨top, bottom⟩ := And.intro placed.stack_top placed.stack_bottom
    obtain ⟨text, above⟩ := And.intro env.layout.text_above env.layout.rodata_above
    have guard := env.layout.guard_above
    have ram : ramBase + ramSize = 0x60000000 := rfl
    have first : linkBase = 0x40200000 := rfl
    rw [ram, first]
    omega
  have boots := placed_boots env.layout mem env.layout.textEnd (le_refl _) fits
    (blank_tables env.layout linkBase mem (at_link ▸ blank))
  rw [loaded_state, ← at_link] at boots
  exact boots

-- The MMU on with the tree, and the memory as it was before the builder but for
-- .bss and the stack.
structure Env.Upstairs (env : Env) (before : Memory) (core : Core) : Prop where
  root : core.root = some (tableAt (loadedAt env.load env.layout.tables) 0)
  mem : ∃ mem, core.mem = env.treed mem ∧
    (∀ a, loadedAt env.load env.bssStart ≤ a → a < loadedAt env.load env.bssEnd → mem a = 0) ∧
    ∀ a, (a < loadedAt env.load env.bssStart ∨ loadedAt env.load env.bssEnd ≤ a) →
      (a < loadedAt env.load env.layout.stackBottom ∨ loadedAt env.load env.layout.stackTop ≤ a) → mem a = before a

theorem upstairs_boots (at_link : env.load = linkBase) (before : Memory) (core : Core) (upstairs : env.Upstairs before core) :
    ∃ s, Boots env.layout env.layout.textEnd env.load s ∧
      ∀ va, translation core.root core.mem va = (s.hardwareWalk va).translation := by
  obtain ⟨root, mem, tree, blank, _⟩ := upstairs
  obtain ⟨low, tables, fits, end_, top, high⟩ := bss_bounds env linked loads
  have boots := linked_boots env at_link mem fun a above below_ => blank a (by omega) (by
    have size : Layout.tablesLen = 14 * 2 ^ 14 := rfl
    omega)
  refine ⟨_, boots, fun va => ?_⟩
  rw [root, tree]
  rfl

theorem upstairs_kept (before : Memory) (core : Core) (upstairs : env.Upstairs before core) (a : Nat)
    (off_bss : a < loadedAt env.load env.bssStart ∨ loadedAt env.load env.bssEnd ≤ a)
    (off_stack : a < loadedAt env.load env.layout.stackBottom ∨ loadedAt env.load env.layout.stackTop ≤ a) :
    core.mem a = before a := by
  obtain ⟨root, mem, tree, _, kept⟩ := upstairs
  obtain ⟨low, tables, fits, end_, top, high⟩ := bss_bounds env linked loads
  rw [tree, Env.treed, tree_memory_outside _ _ _ _ (by unfold tableAt; omega)]
  exact kept a off_bss off_stack

theorem upstairs_here (at_link : env.load = linkBase) (before : Memory) (core : Core) (upstairs : env.Upstairs before core)
    (pool : ∀ symbol, before (env.load + env.pool symbol) = env.value symbol) (n : Nat) (pc : core.pc = env.load + 4 * n) :
    env.Here n core := by
  obtain ⟨low, tables, fits, end_, top, high⟩ := bss_bounds env linked loads
  obtain ⟨s, boots, translates⟩ := upstairs_boots env linked loads at_link before core upstairs
  refine ⟨pc, fun a above below_ => ?_, fun symbol => ?_⟩
  · obtain ⟨rights, found, executes⟩ := boots.code a above (by
      have text := linked.stub
      unfold loadedAt
      omega)
    exact ⟨rights, (translates a).trans found, executes⟩
  · have bound := (linked.pool symbol).2
    rw [upstairs_kept env linked loads before core upstairs _ (by omega) (by omega)]
    exact pool symbol

theorem enabler_returns (at_link : env.load = linkBase) (before : Memory) (core : Core) (upstairs : env.Upstairs before core)
    (pool : ∀ symbol, before (env.load + env.pool symbol) = env.value symbol)
    (pc : core.pc = loadedAt env.load env.enabled) (x30 : core.x 30 = env.load + 4 * 82)
    (sp : core.sp = loadedAt env.load env.layout.stackTop) :
    env.Climbs core (env.returned env.enabler core) ∧ env.Here 82 (env.returned env.enabler core) ∧
      env.Upstairs before (env.returned env.enabler core) := by
  obtain ⟨low, tables, fits, end_, top, high⟩ := bss_bounds env linked loads
  have later : env.Upstairs before (env.returned env.enabler core) := by
    obtain ⟨root, mem, tree, blank, kept⟩ := upstairs
    refine ⟨root, env.scribbled env.enabler core.sp mem, ?_, fun a above below_ => ?_, fun a off_bss off_stack => ?_⟩
    · rw [← scribbled_treed env linked loads, ← tree, Env.returned]
    · rw [Env.scribbled, if_neg (by omega)]
      exact blank a above below_
    · rw [Env.scribbled, if_neg (by omega)]
      exact kept a off_bss off_stack
  obtain ⟨s, boots, translates⟩ := upstairs_boots env linked loads at_link before core upstairs
  obtain ⟨first, last⟩ := linked.enabler.2
  obtain ⟨rights, found, executes⟩ := boots.code (loadedAt env.load env.enabled) (Nat.le_add_right _ _) (by
    have above := linked.enabler.1
    unfold loadedAt
    omega)
  refine ⟨routine_step env loads env.enabled ⟨Nat.le_trans linked.enabler.1 (Nat.le_of_lt first), last⟩ core _ pc .enabled ?_ rfl, ?_, later⟩
  · rw [Env.fetch, pc, translates, found]
    dsimp only
    rw [if_pos executes]
    exact (routines env linked _).2.2.2
  · exact upstairs_here env linked loads at_link before _ later pool 82 x30

theorem canary_walks (at_link : env.load = linkBase) (before : Memory) (core : Core) (upstairs : env.Upstairs before core)
    (canary : before (loadedAt env.load env.mmuCanary) = mmuCanaryValue) :
    ∃ rights, translation core.root core.mem (kernelBase + env.mmuCanary) = some (loadedAt env.load env.mmuCanary, rights) ∧
      core.mem (loadedAt env.load env.mmuCanary) = mmuCanaryValue := by
  obtain ⟨low, tables, fits, end_, top, high⟩ := bss_bounds env linked loads
  obtain ⟨above, below_⟩ := linked.canary
  obtain ⟨rodata, others⟩ := linked.bss
  have placed := env.layout.placed
  obtain ⟨top', bottom⟩ := And.intro placed.stack_top placed.stack_bottom
  obtain ⟨text, guard⟩ := And.intro env.layout.text_above env.layout.guard_above
  have first : linkBase = 0x40200000 := rfl
  obtain ⟨s, boots, translates⟩ := upstairs_boots env linked loads at_link before core upstairs
  have shown : documented env.layout env.mmuCanary = some .ro := by
    rw [documented, if_neg (by omega), if_neg (by omega), if_neg (by omega), if_neg (by omega), if_neg (by omega),
      if_pos (by omega)]
  have image := boots.image env.mmuCanary (by omega) (by omega)
  rw [shown] at image
  obtain ⟨desc, leaf, _⟩ := image
  refine ⟨access desc, ?_, ?_⟩
  · rw [translates, leaf]
    rfl
  · have inside : loadedAt env.load env.mmuCanary < loadedAt env.load env.bssStart := by
      unfold loadedAt
      omega
    rw [upstairs_kept env linked loads before core upstairs _ (.inl inside) (.inl (by omega))]
    exact canary

theorem canary_asked (core : Core) (dtb : Nat) (here : env.Here 82 core) (stashed : env.Stashed dtb core) (rights : Access)
    (walks : translation core.root core.mem (kernelBase + env.mmuCanary) = some (loadedAt env.load env.mmuCanary, rights)) :
    ∃ after, env.Climbs core after ∧ env.Here 87 after ∧ env.Stashed dtb after ∧
      after.x 9 = kernelBase + env.mmuCanary ∧ ∃ par, Computed { core with sys := Function.update core.sys .parEl1 par } after := by
  have par : (loadedAt env.load env.mmuCanary >>> 12 <<< 12) >>> 0 % 2 = 0 := by
    rw [Nat.shiftLeft_eq, Nat.shiftRight_zero]
    omega
  obtain ⟨middle, walked, at_tbnz, kept, x9, x10, same⟩ : ∃ middle, env.Climbs core middle ∧ env.Here 86 middle ∧
      env.Stashed dtb middle ∧ middle.x 9 = kernelBase + env.mmuCanary ∧
      middle.x 10 = loadedAt env.load env.mmuCanary >>> 12 <<< 12 ∧ Computed { core with
        sys := Function.update core.sys .parEl1 (loadedAt env.load env.mmuCanary >>> 12 <<< 12) } middle := by
    obtain ⟨walked, at_tbnz⟩ := stub_straight env linked loads [.ldrPool 9 .mmuCanary, .atS1e1r 9, .isb, .mrs 10 .parEl1] 82 core
      { core with
        pc := core.pc + 16
        x := Function.update (Function.update core.x 9 (kernelBase + env.mmuCanary)) 10 (loadedAt env.load env.mmuCanary >>> 12 <<< 12)
        sys := Function.update core.sys .parEl1 (loadedAt env.load env.mmuCanary >>> 12 <<< 12) } here rfl (by
      simp [evaluate, Instr.plain, Env.exec, Env.value, Core.setX, Core.setSys, Core.next, SysReg.reachable, walks])
    exact ⟨_, walked, at_tbnz, ⟨stashed.dtb, stashed.base, stashed.load, stashed.delta⟩, by simp, by simp,
      ⟨rfl, rfl, rfl, rfl, rfl, rfl, rfl⟩⟩
  have passed := stub_step env linked loads 86 (.tbnz 10 0 .canaryDead) middle middle.next at_tbnz rfl
    (congrArg some (if_neg (by rw [x10, par]; decide)))
  exact ⟨_, walked.trans passed, at_tbnz.moved 87 _ (by rw [Core.next, at_tbnz.pc]) rfl rfl,
    ⟨kept.dtb, kept.base, kept.load, kept.delta⟩, x9, _, ⟨same.sp, same.daif, same.el, same.sys, same.root, same.mem, same.uart⟩⟩

theorem canary_read (core : Core) (dtb : Nat) (here : env.Here 87 core) (stashed : env.Stashed dtb core) (rights : Access)
    (x9 : core.x 9 = kernelBase + env.mmuCanary)
    (walks : translation core.root core.mem (kernelBase + env.mmuCanary) = some (loadedAt env.load env.mmuCanary, rights))
    (word : core.mem (loadedAt env.load env.mmuCanary) = mmuCanaryValue) :
    ∃ after, env.Climbs core after ∧ env.Here 98 after ∧ env.Stashed dtb after ∧ Computed core after := by
  have read := stub_step env linked loads 87 (.ldr 10 9) core (core.setX 10 mmuCanaryValue) here rfl (by
    rw [Env.exec, x9, walks, Option.map_some, word])
  have at_mov : env.Here 88 (core.setX 10 mmuCanaryValue) := here.moved 88 _ (by rw [Core.setX, here.pc]) rfl rfl
  obtain ⟨middle, compared, at_branch, kept, zero, same⟩ : ∃ middle, env.Climbs (core.setX 10 mmuCanaryValue) middle ∧
      env.Here 93 middle ∧ env.Stashed dtb middle ∧ middle.zero = true ∧ Computed core middle := by
    obtain ⟨compared, at_branch⟩ := stub_straight env linked loads
      [.movImm 11 0x4F4B, .movk 11 0x4D32 16, .movk 11 0x414C 32, .movk 11 0x4F50 48, .cmp 10 11] 88 _ _ at_mov rfl rfl
    refine ⟨_, compared, at_branch, ⟨stashed.dtb, stashed.base, stashed.load, stashed.delta⟩, ?_, ⟨rfl, rfl, rfl, rfl, rfl, rfl, rfl⟩⟩
    simp [Core.setX, mmuCanaryValue]
  have taken := stub_step env linked loads 93 (.bEq .canaryOk) middle (middle.jump env.load .canaryOk) at_branch rfl
    (congrArg some (if_pos zero))
  exact ⟨_, (read.trans compared).trans taken, at_branch.moved 98 _ rfl rfl rfl,
    ⟨kept.dtb, kept.base, kept.load, kept.delta⟩, ⟨same.sp, same.daif, same.el, same.sys, same.root, same.mem, same.uart⟩⟩

theorem core_moves (at_link : env.load = linkBase) (core : Core) (dtb : Nat) (here : env.Here 98 core) (stashed : env.Stashed dtb core)
    (sp : core.sp = loadedAt env.load env.layout.stackTop) : ∃ after, env.Climbs core after ∧
      after.pc = kernelBase + env.startRust ∧ after.x 0 = dtb ∧ after.x 1 = env.load ∧ after.x 29 = 0 ∧
      Computed { core with
        sp := kernelBase + loadedAt env.load env.layout.stackTop
        sys := Function.update core.sys .vbarEl1 (kernelBase + env.vectors) } after := by
  have image_fits := env.layout.placed.fits
  obtain ⟨middle, moved, at_br, pc, x0, x1, x29, same⟩ : ∃ middle, env.Climbs core middle ∧ env.Here 108 middle ∧
      middle.x 9 = kernelBase + env.startRust ∧ middle.x 0 = dtb ∧ middle.x 1 = env.load ∧ middle.x 29 = 0 ∧
      Computed { core with
        sp := (core.sp + core.x 21) % 2 ^ 64
        sys := Function.update core.sys .vbarEl1 (kernelBase + env.vectors) } middle := by
    obtain ⟨moved, at_br⟩ := stub_straight env linked loads
      [.ldrPool 9 .vectors, .msr .vbarEl1 9, .isb, .movFromSp 10, .add 10 10 21, .movToSp 10, .movZr 29, .mov 0 19, .mov 1 22,
        .ldrPool 9 .startRust] 98 _ _ here rfl rfl
    exact ⟨_, moved, at_br, rfl, stashed.dtb, stashed.load, rfl, ⟨rfl, rfl, rfl, rfl, rfl, rfl, rfl⟩⟩
  have left := stub_step env linked loads 108 (.br 9) middle _ at_br rfl rfl
  refine ⟨_, moved.trans left, pc, x0, x1, x29, ⟨?_, same.daif, same.el, same.sys, same.root, same.mem, same.uart⟩⟩
  refine same.sp.trans ?_
  dsimp only
  rw [sp, stashed.base, loadedAt, at_link]
  unfold linkBase kernelBase
  omega

theorem quiet_low (before core : Core) (quiet : env.Quiet before core) : core.pc < 2 ^ 48 := by
  obtain ⟨low, tables, fits, end_, top, high⟩ := bss_bounds env linked loads
  have below_ := quiet.below_
  omega

omit linked loads in
theorem entered_here (core : Core) (entered : env.Entered core) : env.Here 0 core := by
  refine ⟨entered.pc, fun a _ _ => ⟨flat, ?_, rfl⟩, entered.pool⟩
  rw [entered.mmu]
  rfl

-- What the stub configures of EL2 before it leaves.
structure Env.Left (env : Env) (core after : Core) : Prop where
  el : after.el = 1
  stays : core.el = 1 → after.daif = core.daif ∧ ∀ reg, reg ≠ .vbarEl1 → reg ≠ .parEl1 → after.sys reg = core.sys reg
  drops : core.el = 2 → after.daif = 0xF ∧ after.sys .hcrEl2 = 1 <<< 31 ∧ after.sys .cntvoffEl2 = 0 ∧
    after.sys .vbarEl2 = loadedAt env.load env.vectors

-- The boot core at the builder's first instruction.
structure Env.Calling (env : Env) (core after : Core) : Prop where
  pc : after.pc = loadedAt env.load env.opalBuildTables
  stashed : env.Stashed (core.x 0) after
  delta : after.x 0 = bootDelta env.load
  back : after.x 30 = env.load + 4 * 71
  mmu : after.root = none
  mem : after.mem = env.blank core.mem
  uart : after.uart = core.uart
  sp : after.sp = loadedAt env.load env.layout.stackTop
  left : env.Left core after

theorem boot_core_calls (core : Core) (entered : env.Entered core) (first : affinity env.mpidr = 0)
    (agree : env.kernelVaBase = kernelBase) : ∃ after, env.Climbs core after ∧ env.Calling core after := by
  obtain ⟨a, to_a, at_a, same_a, x0⟩ := start_dispatches env linked loads core (entered_here env core entered)
  rw [if_pos first] at at_a
  obtain ⟨b, to_b, at_b, same, x19, x22, x23, x3⟩ := core0_stashes env linked loads core a at_a same_a
  rw [if_pos agree] at at_b
  have quiet : env.Climbs core b := (to_a.trans to_b).weaken fun state quiet => quiet_low env linked loads core state quiet
  obtain ⟨c, to_c, at_c, dropped, stashed⟩ := core0_drops env linked loads b at_b x3 x22 x23 (by rw [same.el]; exact entered.level)
  obtain ⟨d, to_d, at_d, stashed_d, same_d, x1, x2⟩ := el1_prepares env linked loads c _ at_c stashed
  have mmu : d.root = none := same_d.root.trans (dropped.root.trans (same.root.trans entered.mmu))
  obtain ⟨e, to_e, at_e, stashed_e, same_e⟩ := bss_clears env linked loads d _ at_d stashed_d mmu x1 x2
  obtain ⟨f, to_f, pc, stashed_f, delta, back, same_f⟩ := builder_called env linked loads e _ at_e stashed_e
  have same_df := same_e.trans same_f
  refine ⟨f, (((quiet.trans to_c).trans to_d).trans to_e).trans to_f, pc, ?_, delta, back, same_df.root.trans mmu,
    ?_, ?_, same_df.sp.trans same_d.sp, ?_⟩
  · rw [← x0, ← x19]
    exact stashed_f
  · have kept : d.mem = core.mem := same_d.mem.trans (dropped.mem.trans same.mem)
    rw [same_df.mem, ← kept]
  · exact same_df.uart.trans (same_d.uart.trans (dropped.uart.trans same.uart))
  · have el : f.el = c.el := same_df.el.trans same_d.el
    have daif : f.daif = c.daif := same_df.daif.trans same_d.daif
    have sys : f.sys = c.sys := same_df.sys.trans same_d.sys
    refine ⟨el.trans dropped.el, fun kernel => ?_, fun hypervisor => ?_⟩
    · obtain ⟨kept, others⟩ := dropped.stays (same.el.trans kernel)
      exact ⟨daif.trans (kept.trans same.daif), fun reg _ _ => by rw [sys, others, same.sys]⟩
    · rw [daif, sys]
      exact dropped.drops (same.el.trans hypervisor)

omit linked loads in
theorem Env.Left.moved {env : Env} {core middle after : Core} (left : env.Left core middle) (daif : after.daif = middle.daif)
    (el : after.el = middle.el) (sys : ∀ reg, reg ≠ .vbarEl1 → reg ≠ .parEl1 → after.sys reg = middle.sys reg) :
    env.Left core after := by
  refine ⟨el.trans left.el, fun kernel => ?_, fun hypervisor => ?_⟩
  · obtain ⟨kept, others⟩ := left.stays kernel
    exact ⟨daif.trans kept, fun reg low high => (sys reg low high).trans (others reg low high)⟩
  · obtain ⟨masked, hcr, cntvoff, vbar⟩ := left.drops hypervisor
    exact ⟨daif.trans masked, (sys _ (by decide) (by decide)).trans hcr, (sys _ (by decide) (by decide)).trans cntvoff,
      (sys _ (by decide) (by decide)).trans vbar⟩

-- The MMU is on, and the next instruction is opal_mmu_enable's own.
structure Env.Enabled (env : Env) (core after : Core) : Prop where
  pc : after.pc = loadedAt env.load env.enabled
  stashed : env.Stashed (core.x 0) after
  back : after.x 30 = env.load + 4 * 82
  upstairs : env.Upstairs core.mem after
  uart : after.uart = core.uart
  sp : after.sp = loadedAt env.load env.layout.stackTop
  vbar : after.sys .vbarEl1 = loadedAt env.load env.vectors
  left : env.Left core after

theorem boot_core_enables (core middle : Core) (entered : env.Entered core) (calling : env.Calling core middle)
    (present : env.mmfr0 >>> 20 &&& 0xF ≠ 0) : ∃ after, env.Climbs middle after ∧ env.Enabled core after := by
  obtain ⟨pc, stashed, delta, back, mmu, mem, uart, sp, left⟩ := calling
  obtain ⟨low, tables, fits, end_, top, high⟩ := bss_bounds env linked loads
  have pool : ∀ symbol, middle.mem (env.load + env.pool symbol) = env.value symbol := by
    intro symbol
    have bound := (linked.pool symbol).2
    rw [mem, Env.blank, if_neg (by omega)]
    exact entered.pool symbol
  obtain ⟨a, to_a, at_a, stashed_a, root, same_a⟩ := builder_builds env linked loads middle _ pc stashed delta back mmu pool present
  obtain ⟨b, to_b, pc_b, stashed_b, root_b, back_b, same_b⟩ := enabler_called env linked loads a _ at_a stashed_a
  have to_c := enabler_enables env linked loads b pc_b (same_b.root.trans (same_a.root.trans mmu))
  have memory : b.mem = env.treed (env.scribbled env.builder middle.sp middle.mem) := by
    rw [same_b.mem, same_a.mem]
  refine ⟨_, (to_a.trans to_b).trans to_c, rfl, ⟨stashed_b.dtb, stashed_b.base, stashed_b.load, stashed_b.delta⟩, back_b,
    ⟨?_, _, memory, fun a above below_ => ?_, fun a off_bss off_stack => ?_⟩, ?_, ?_, ?_, ?_⟩
  · exact congrArg some (root_b.trans root)
  · rw [Env.scribbled, if_neg (by omega), mem, Env.blank, if_pos ⟨above, below_⟩]
  · rw [Env.scribbled, if_neg (by omega), mem, Env.blank, if_neg (by omega)]
  · exact same_b.uart.trans (same_a.uart.trans uart)
  · exact same_b.sp.trans (same_a.sp.trans sp)
  · simp only [same_b.sys, Function.update_self]
  · refine left.moved (same_b.daif.trans same_a.daif) (same_b.el.trans same_a.el) fun reg low _ => ?_
    simp only [same_b.sys, Function.update_of_ne low, same_a.sys]

-- What Rust finds at its first instruction.
structure Env.Delivered (env : Env) (core after : Core) : Prop where
  pc : after.pc = kernelBase + env.startRust
  dtb : after.x 0 = core.x 0
  load : after.x 1 = env.load
  frame : after.x 29 = 0
  sp : after.sp = kernelBase + env.layout.stackTop
  vbar : after.sys .vbarEl1 = kernelBase + env.vectors
  upstairs : env.Upstairs core.mem after
  uart : after.uart = core.uart
  left : env.Left core after

-- At the link address the core comes through.
theorem boot_core_arrives (at_link : env.load = linkBase) (core middle : Core) (entered : env.Entered core)
    (enabled : env.Enabled core middle) : ∃ after, env.Climbs middle after ∧ env.Delivered core after := by
  obtain ⟨pc, stashed, back, upstairs, uart, sp, vbar, left⟩ := enabled
  obtain ⟨to_a, at_a, upstairs_a⟩ := enabler_returns env linked loads at_link core.mem middle upstairs entered.pool pc back sp
  have stashed_a : env.Stashed (core.x 0) (env.returned env.enabler middle) :=
    ⟨stashed.dtb, stashed.base, stashed.load, stashed.delta⟩
  obtain ⟨rights, walks, word⟩ := canary_walks env linked loads at_link core.mem _ upstairs_a entered.canary
  obtain ⟨b, to_b, at_b, stashed_b, x9, par, same_b⟩ := canary_asked env linked loads _ _ at_a stashed_a rights walks
  obtain ⟨c, to_c, at_c, stashed_c, same_c⟩ := canary_read env linked loads b _ at_b stashed_b rights x9
    (by simp only [same_b.root, same_b.mem, walks]) (by simp only [same_b.mem, word])
  obtain ⟨d, to_d, pc_d, x0, x1, x29, same_d⟩ := core_moves env linked loads at_link c _ at_c stashed_c
    (same_c.sp.trans (same_b.sp.trans sp))
  have here : loadedAt env.load env.layout.stackTop = env.layout.stackTop := by
    have placed := env.layout.placed
    obtain ⟨top, bottom⟩ := And.intro placed.stack_top placed.stack_bottom
    obtain ⟨text, above⟩ := And.intro env.layout.text_above env.layout.rodata_above
    have guard := env.layout.guard_above
    rw [loadedAt, at_link]
    unfold linkBase
    omega
  refine ⟨d, ((to_a.trans to_b).trans to_c).trans to_d, pc_d, x0, x1, x29, ?_, ?_, ?_, ?_, ?_⟩
  · rw [same_d.sp, here]
  · simp only [same_d.sys, Function.update_self]
  · obtain ⟨root, mem, tree, blank, kept⟩ := upstairs_a
    exact ⟨same_d.root.trans (same_c.root.trans (same_b.root.trans root)), mem,
      by simp only [same_d.mem, same_c.mem, same_b.mem, tree], blank, kept⟩
  · exact same_d.uart.trans (same_c.uart.trans (same_b.uart.trans uart))
  · refine left.moved (same_d.daif.trans (same_c.daif.trans same_b.daif)) (same_d.el.trans (same_c.el.trans same_b.el))
      fun reg low high => ?_
    simp only [same_d.sys, Function.update_of_ne low, same_c.sys, same_b.sys, Function.update_of_ne high, Env.returned]

theorem waits (before : Core) (n : Nat) (label : Label) (first : stub[n]? = some .wfe) (second : stub[n + 1]? = some (.b label))
    (back : place label = n) (settled : Core) (here : env.Here n settled) (same : Computed before settled) (core : Core)
    (run : env.machine.Through (env.Quiet before) core settled) (after : Core) (reached : env.machine.Reaches core after) :
    env.Quiet before after := by
  have end_ := (List.getElem?_eq_some_iff.mp second).1
  have closed : ∀ state next, ((env.Here n state ∨ env.Here (n + 1) state) ∧ Computed before state) →
      env.machine.step state = some next → (env.Here n next ∨ env.Here (n + 1) next) ∧ Computed before next := by
    rintro state next ⟨there | there, same⟩ step
    · have fetched := env.machine.step_fetched _ state state.next (fetch_stub env linked loads n .wfe state there first) rfl
      cases Option.some.inj (fetched.symm.trans step)
      exact ⟨.inr (there.moved (n + 1) _ (by rw [Core.next, there.pc]; rfl) rfl rfl),
        ⟨same.sp, same.daif, same.el, same.sys, same.root, same.mem, same.uart⟩⟩
    · have fetched := env.machine.step_fetched _ state (state.jump env.load label)
        (fetch_stub env linked loads (n + 1) (.b label) state there second) rfl
      cases Option.some.inj (fetched.symm.trans step)
      exact ⟨.inl (there.moved n _ (by rw [Core.jump, back]) rfl rfl),
        ⟨same.sp, same.daif, same.el, same.sys, same.root, same.mem, same.uart⟩⟩
  rcases run.settled _ ⟨.inl here, same⟩ closed reached with quiet | ⟨there | there, same⟩
  · exact quiet
  · exact quiet_here env before after n there same (by omega)
  · exact quiet_here env before after (n + 1) there same end_

end

theorem loads_at_link (env : Env) (at_link : env.load = linkBase) : env.layout.Loads env.load := by
  have placed := env.layout.placed
  obtain ⟨top, bottom⟩ := And.intro placed.stack_top placed.stack_bottom
  have image_fits := placed.fits
  rw [at_link]
  refine ⟨by decide, ?_⟩
  unfold linkBase
  omega

def Symbol.all : List Symbol :=
  [ .imageStart, .kernelVaBase, .vectors, .stackTop, .bssStart, .bssEnd, .opalBuildTables, .opalMmuEnable, .mmuCanary, .startRust ]

-- An image, and a core that has been sent to it.
def sampleEnv (load mpidr : Nat) : Env where
  layout := sampleLayout
  load := load
  pool := fun symbol => 448 + 8 * Symbol.all.idxOf symbol
  kernelVaBase := kernelBase
  vectors := 0x40200800
  bssStart := 0x40280000
  bssEnd := 0x40300000
  opalBuildTables := 0x40210000
  parked := 0x40210100
  opalMmuEnable := 0x40211000
  enabled := 0x40211080
  mmuCanary := 0x40250000
  startRust := 0x40212000
  mpidr := mpidr
  mmfr0 := 0x100000
  builder := ⟨fun _ => 0xB, false, fun _ => 0xB⟩
  enabler := ⟨fun _ => 0xE, true, fun _ => 0xE⟩

def sampleCore (load mpidr el : Nat) : Core where
  pc := load
  x := fun _ => 0x48000000
  sp := 0
  zero := false
  daif := 0
  el := el
  sys := fun _ => 0
  root := none
  mem := fun a =>
    match Symbol.all[(a - (load + 448)) / 8]? with
    | some symbol =>
        if load + (sampleEnv load mpidr).pool symbol = a then (sampleEnv load mpidr).value symbol else 0xDEAD
    | none => if a = loadedAt load 0x40250000 then mmuCanaryValue else 0xDEAD
  uart := []

theorem sample_linked (load mpidr : Nat) : (sampleEnv load mpidr).Linked where
  stub := show linkBase + 0x440 ≤ 0x40240000 by decide
  pool := fun symbol => show 4 * Boot.stub.length ≤ 448 + 8 * Symbol.all.idxOf symbol ∧
    448 + 8 * Symbol.all.idxOf symbol + 8 ≤ 0x440 by cases symbol <;> decide
  vectors := show linkBase + 0x440 ≤ 0x40200800 ∧ 0x40200800 < 0x40240000 by decide
  builder := show linkBase + 0x440 ≤ 0x40210000 ∧ 0x40210000 < 0x40210100 ∧ 0x40210100 < 0x40240000 by decide
  enabler := show linkBase + 0x440 ≤ 0x40211000 ∧ 0x40211000 < 0x40211080 ∧ 0x40211080 < 0x40240000 by decide
  apart := .inl (show 0x40210100 < 0x40211000 by decide)
  startRust := show linkBase + 0x440 ≤ 0x40212000 ∧ 0x40212000 < 0x40240000 by decide
  canary := show 0x40240000 ≤ 0x40250000 ∧ 0x40250000 < 0x40280000 by decide
  bss := show 0x40280000 ≤ 0x40280000 ∧ 0x40280000 ≤ 0x40280000 ∧ 0x40280000 + 14 * 2 ^ 14 ≤ 0x40300000 ∧
    0x40300000 ≤ 0x40300000 by decide
  bss_aligned := show 0x40280000 % 16 = 0 ∧ 0x40300000 % 16 = 0 by decide

theorem sample_canary (load mpidr el a : Nat) (canary : a = loadedAt load 0x40250000) (past : (a - (load + 448)) / 8 = 0x9FC8) :
    (sampleCore load mpidr el).mem a = mmuCanaryValue := by
  have none : Symbol.all[0x9FC8]? = none := rfl
  simp only [sampleCore, past, none, if_pos canary]

theorem sample_entered (load mpidr el : Nat) (level : el = 1 ∨ el = 2) :
    (sampleEnv load mpidr).Entered (sampleCore load mpidr el) where
  pc := rfl
  mmu := rfl
  level := level
  pool := fun symbol => by
    have index : (load + (448 + 8 * Symbol.all.idxOf symbol) - (load + 448)) / 8 = Symbol.all.idxOf symbol := by omega
    have found : Symbol.all[Symbol.all.idxOf symbol]? = some symbol := by cases symbol <;> rfl
    simp only [sampleEnv, sampleCore, index, found, if_true]
  canary := by
    refine sample_canary load mpidr el _ rfl ?_
    change (loadedAt load 0x40250000 - (load + 448)) / 8 = 0x9FC8
    unfold loadedAt linkBase
    omega

theorem sent_away (env : Env) (linked : env.Linked) (loads : env.layout.Loads env.load) (core : Core)
    (entered : env.Entered core) (out : affinity env.mpidr ≠ 0 ∨ env.kernelVaBase ≠ kernelBase) :
    ∃ n label settled, stub[n]? = some .wfe ∧ stub[n + 1]? = some (.b label) ∧ place label = n ∧ env.Here n settled ∧
      Computed core settled ∧ env.machine.Through (env.Quiet core) core settled := by
  obtain ⟨a, to_a, at_a, same_a, x0⟩ := start_dispatches env linked loads core (entered_here env core entered)
  by_cases first : affinity env.mpidr = 0
  · rw [if_pos first] at at_a
    obtain ⟨b, to_b, at_b, same, _⟩ := core0_stashes env linked loads core a at_a same_a
    rw [if_neg (out.resolve_left fun other => other first)] at at_b
    exact ⟨109, .halt, b, rfl, rfl, rfl, at_b, same, to_a.trans to_b⟩
  · rw [if_neg first] at at_a
    exact ⟨21, .park, a, rfl, rfl, rfl, at_a, same_a, to_a⟩

-- A core that is not the boot core, and every core of an image whose two copies
-- of KERNEL_BASE differ, stays in the stub: it writes no memory and no system
-- register, turns nothing on and says nothing.
theorem other_cores_stay_quiet (env : Env) (linked : env.Linked) (loads : env.layout.Loads env.load) (core : Core)
    (entered : env.Entered core) (out : affinity env.mpidr ≠ 0 ∨ env.kernelVaBase ≠ kernelBase) (after : Core)
    (reached : env.machine.Reaches core after) : env.Quiet core after := by
  obtain ⟨n, label, settled, first, second, back, here, same, run⟩ := sent_away env linked loads core entered out
  exact waits env linked loads core n label first second back settled here same core run after reached

-- The second core comes to the park loop.
theorem other_cores_stay_quiet_second : ∃ parked, (sampleEnv linkBase 1).machine.Reaches (sampleCore linkBase 1 1) parked ∧
    parked.pc = linkBase + 4 * place .park ∧ (sampleEnv linkBase 1).Quiet (sampleCore linkBase 1 1) parked := by
  have linked := sample_linked linkBase 1
  have loads := loads_at_link (sampleEnv linkBase 1) rfl
  have entered := sample_entered linkBase 1 1 (.inl rfl)
  obtain ⟨parked, run, here, -⟩ := start_dispatches _ linked loads _ (entered_here _ _ entered)
  exact ⟨parked, run.reaches, here.pc, other_cores_stay_quiet _ linked loads _ entered (.inl (by decide)) parked run.reaches⟩

theorem core_without_granule (env : Env) (linked : env.Linked) (loads : env.layout.Loads env.load) (core : Core)
    (entered : env.Entered core) (first : affinity env.mpidr = 0) (agree : env.kernelVaBase = kernelBase)
    (missing : env.mmfr0 >>> 20 &&& 0xF = 0) : ∃ after, env.Climbs core after ∧ env.machine.step after = some after ∧
      after.pc = loadedAt env.load env.parked ∧ after.root = none ∧
      after.uart = core.uart ++ [0x4D, 0x4D, 0x55, 0x3F, 0x47] := by
  obtain ⟨a, to_a, calling⟩ := boot_core_calls env linked loads core entered first agree
  have builder := And.intro linked.builder.1 (linked.builder.2.1.trans linked.builder.2.2)
  have called : env.fetch a = some .opalBuildTables := by
    rw [fetched_flat env a calling.mmu, calling.pc]
    exact (routines env linked _).1
  have parks := routine_step env loads env.opalBuildTables builder a
    { a with
      uart := a.uart ++ [0x4D, 0x4D, 0x55, 0x3F, 0x47]
      pc := loadedAt env.load env.parked } calling.pc .opalBuildTables called (by
    rw [Env.exec, Mmu.opalBuildTables, if_pos missing])
  refine ⟨_, to_a.trans parks, env.machine.step_fetched .parked _ _ ?_ rfl, rfl, calling.mmu, ?_⟩
  · exact (fetched_flat env { a with
      uart := a.uart ++ [0x4D, 0x4D, 0x55, 0x3F, 0x47]
      pc := loadedAt env.load env.parked } calling.mmu).trans (routines env linked _).2.1
  · dsimp only
    rw [calling.uart]

-- What the core needs to come through.
def Env.Boots (env : Env) : Prop :=
  affinity env.mpidr = 0 ∧ env.kernelVaBase = kernelBase ∧ env.mmfr0 >>> 20 &&& 0xF ≠ 0

-- At the link address the boot core, started at EL1 or at EL2, comes to Rust's
-- first instruction, with all of Delivered; and it comes there in no other case.
theorem stub_enters_rust (env : Env) (linked : env.Linked) (at_link : env.load = linkBase) (core : Core)
    (entered : env.Entered core) :
    (env.Boots → ∃ after, env.machine.Reaches core after ∧ env.Delivered core after) ∧
      (¬ env.Boots → ∀ after, env.machine.Reaches core after → after.pc < 2 ^ 48) := by
  have loads := loads_at_link env at_link
  constructor
  · rintro ⟨first, agree, present⟩
    obtain ⟨a, to_a, calling⟩ := boot_core_calls env linked loads core entered first agree
    obtain ⟨b, to_b, enabled⟩ := boot_core_enables env linked loads core a entered calling present
    obtain ⟨c, to_c, delivered⟩ := boot_core_arrives env linked loads at_link core b entered enabled
    exact ⟨c, ((to_a.trans to_b).trans to_c).reaches, delivered⟩
  · intro stuck after reached
    by_cases boot : affinity env.mpidr = 0 ∧ env.kernelVaBase = kernelBase
    · have missing : env.mmfr0 >>> 20 &&& 0xF = 0 := by
        by_contra present
        exact stuck ⟨boot.1, boot.2, present⟩
      obtain ⟨parked, run, stays, pc, _⟩ := core_without_granule env linked loads core entered boot.1 boot.2 missing
      have past := Nat.le_of_lt (Nat.lt_of_le_of_lt linked.builder.1 linked.builder.2.1)
      obtain ⟨above, below_⟩ := text_bounds env env.parked ⟨past, linked.builder.2.2⟩
      have closed : ∀ state next, state = parked → env.machine.step state = some next → next = parked := by
        intro state next same step
        rw [same] at step
        exact (Option.some.inj (stays.symm.trans step)).symm
      rcases run.settled (fun state => state = parked) rfl closed reached with low | rfl
      · exact low
      · have placed := env.layout.placed.fits
        rw [pc, loadedAt, at_link]
        unfold linkBase at above ⊢
        omega
    · obtain ⟨n, label, settled, first, second, back, here, same, run⟩ := sent_away env linked loads core entered (not_and_or.mp boot)
      exact quiet_low env linked loads core after
        (waits env linked loads core n label first second back settled here same core run after reached)

-- From EL2, as m1n1 starts it.
theorem stub_enters_rust_el2 : ∃ after, (sampleEnv linkBase 0x80000000).machine.Reaches (sampleCore linkBase 0x80000000 2) after ∧
    (sampleEnv linkBase 0x80000000).Delivered (sampleCore linkBase 0x80000000 2) after :=
  (stub_enters_rust (sampleEnv linkBase 0x80000000) (sample_linked linkBase 0x80000000) rfl (sampleCore linkBase 0x80000000 2)
    (sample_entered linkBase 0x80000000 2 (.inr rfl))).1 ⟨by decide, rfl, by decide⟩

end Boot

end Opal
