import Opal.BootTables

set_option autoImplicit false

namespace Opal

namespace Mmu

-- The link-time addresses below 2^48, and where the statics stand to them.
structure Layout.Placed (layout : Layout) : Prop where
  text_aligned : layout.textEnd % 2 ^ 14 = 0
  rodata_aligned : layout.rodataEnd % 2 ^ 14 = 0
  guard_aligned : layout.guardBottom % 2 ^ 14 = 0
  stack_bottom : layout.stackBottom = layout.guardBottom + 2 ^ 14
  stack_top : layout.stackTop = layout.stackBottom + 2 ^ 16
  fits : layout.stackTop ≤ 0x42000000
  tables_aligned : layout.tables % 2 ^ 14 = 0
  tables_below : layout.tables + 14 * 2 ^ 14 ≤ layout.guardBottom
  tables_above : layout.rodataEnd ≤ layout.tables

theorem Layout.placed (layout : Layout) : layout.Placed where
  text_aligned := (Nat.and_two_pow_sub_one_eq_mod _ 14).symm.trans layout.text_aligned
  rodata_aligned := (Nat.and_two_pow_sub_one_eq_mod _ 14).symm.trans layout.rodata_aligned
  guard_aligned := (Nat.and_two_pow_sub_one_eq_mod _ 14).symm.trans layout.guard_aligned
  stack_bottom := layout.guard_size
  stack_top := layout.stack_size
  fits := layout.image_fits
  tables_aligned := layout.aligned layout.tables List.mem_cons_self
  tables_below := (layout.in_bss (layout.tables, 14) List.mem_cons_self).2
  tables_above := (layout.in_bss (layout.tables, 14) List.mem_cons_self).1

-- The tables of TABLES by their position.
abbrev Layout.table (layout : Layout) (k : Nat) : Nat := tableAt layout.tables k

-- The tree of an image at its link-time address.
def bootWord (layout : Layout) : Nat → Nat → Nat := treeWord layout.tables (loadedPage layout 0)

def bootMemory (layout : Layout) (mem : Memory) : Memory := treeMemory layout.tables (loadedPage layout 0) mem

theorem boot_word_trunk (layout : Layout) (i : Nat) :
    bootWord layout 2 i =
      if i = 4 then tableDesc (layout.table 4)
      else if i = 32 then tableDesc (layout.table 3)
      else if 33 ≤ i ∧ i < 48 then blockDesc (i * 2 ^ 25) .rw
      else if i = 48 then blockDesc 0x60000000 .device
      else 0 := rfl

-- The storage that the boot stub has zeroed.
def Zeroed (layout : Layout) (mem : Memory) : Prop := ∀ a, layout.table 0 ≤ a → a < layout.table 14 → mem a = 0

theorem build_tables (layout : Layout) (mmfr0 : Nat) (mem : Memory) (present : mmfr0 >>> 20 &&& 0xF ≠ 0) :
    opalBuildTables layout 0 mmfr0 mem = some (layout.table 0, bootMemory layout mem) := by
  have placed := layout.placed
  have bound : layout.tables < 0x42000000 := by
    have below := placed.tables_below
    have fits := placed.fits
    have top := placed.stack_top
    have bottom := placed.stack_bottom
    omega
  have base : (layout.tables + 0) % 2 ^ 64 = layout.tables := by omega
  exact build_tree layout 0 mmfr0 mem present layout.tables base (by omega)

theorem build_succeeds (layout : Layout) (mmfr0 : Nat) (mem : Memory) (root : Nat) (built : Memory)
    (builds : opalBuildTables layout 0 mmfr0 mem = some (root, built)) :
    root = layout.table 0 ∧ built = bootMemory layout mem := by
  by_cases absent : mmfr0 >>> 20 &&& 0xF = 0
  · rw [opalBuildTables, if_pos absent] at builds
    cases builds
  · rw [build_tables layout mmfr0 mem absent] at builds
    cases builds
    exact ⟨rfl, rfl⟩

theorem boot_memory_word (layout : Layout) (mem : Memory) (zeroed : Zeroed layout mem) (k i : Nat) (k_small : k < 14)
    (i_small : i < 2048) : bootMemory layout mem (layout.table k + i * 8) = bootWord layout k i :=
  tree_memory_word layout.tables (loadedPage layout 0) mem zeroed k i k_small i_small

theorem boot_memory_outside (layout : Layout) (mem : Memory) (a : Nat)
    (away : a < layout.table 0 ∨ layout.table 14 ≤ a) : bootMemory layout mem a = mem a :=
  tree_memory_outside layout.tables (loadedPage layout 0) mem a away

-- The memory map as it is documented, by physical address: the GIC and UART
-- pages, the DTB window, .text, .rodata, .data and .bss, the guard, the stack
-- and the rest of RAM, the bus-error window.
def documented (layout : Layout) (pa : Nat) : Option Attr :=
  if 0x08000000 ≤ pa ∧ pa < 0x08020000 then some .device
  else if 0x09000000 ≤ pa ∧ pa < 0x09004000 then some .device
  else if pa < 0x40000000 then none
  else if pa < 0x40200000 then some .ro
  else if pa < layout.textEnd then some .textRx
  else if pa < layout.rodataEnd then some .ro
  else if pa < layout.guardBottom then some .rw
  else if pa < layout.stackBottom then none
  else if pa < 0x60000000 then some .rw
  else if pa < 0x62000000 then some .device
  else none

section
variable (layout : Layout) (mem : Memory)

-- The regions of the kernel's 32 MiB, as the builder tells them apart.
theorem documented_image (pa : Nat) (low : 0x40000000 ≤ pa) (high : pa < 0x42000000) (desc : Attr → Nat) :
    (if pa < ramBase + 0x200000 then some (desc .ro)
      else if pa < layout.textEnd then some (desc .textRx)
      else if pa < layout.rodataEnd then some (desc .ro)
      else if pa < layout.guardBottom then some (desc .rw)
      else if pa < layout.stackBottom then none
      else some (desc .rw)) = (documented layout pa).map desc := by
  change (if pa < 0x40200000 then _ else _) = _
  rw [documented, if_neg (show ¬ (0x08000000 ≤ pa ∧ pa < 0x08020000) by omega),
    if_neg (show ¬ (0x09000000 ≤ pa ∧ pa < 0x09004000) by omega), if_neg (show ¬ pa < 0x40000000 by omega)]
  split_ifs <;> first | omega | rfl

theorem kernel_page (i : Nat) (small : i < 2048) :
    loadedPage layout 0 i = (documented layout (ramBase + i * 2 ^ 14)).map (pageDesc (ramBase + i * 2 ^ 14)) := by
  have placed := layout.placed
  obtain ⟨fits, top, bottom⟩ := And.intro placed.fits (And.intro placed.stack_top placed.stack_bottom)
  obtain ⟨above, rodata, guard⟩ := And.intro layout.text_above (And.intro layout.rodata_above layout.guard_above)
  have link : ∀ pa, pa < 2 ^ 48 → ((pa + 0) % 2 ^ 64 + (2 ^ 64 - 0)) % 2 ^ 64 = pa := fun pa below => by omega
  have out : (ramBase + i * 2 ^ 14 + 0) % 2 ^ 64 = ramBase + i * 2 ^ 14 := by
    unfold ramBase
    omega
  have base : ramBase = 0x40000000 := rfl
  rw [← documented_image layout _ (by omega) (by omega)]
  unfold loadedPage kernelPage
  rw [Nat.shiftLeft_eq]
  dsimp only
  simp only [link layout.textEnd (by omega), link layout.rodataEnd (by omega), link layout.guardBottom (by omega),
    link layout.stackBottom (by omega), link layout.stackTop (by omega), out, ite_self]

theorem documented_page (pa : Nat) : documented layout (pa / 2 ^ 14 * 2 ^ 14) = documented layout pa := by
  have placed := layout.placed
  have edge : ∀ bound, bound % 2 ^ 14 = 0 → (pa / 2 ^ 14 * 2 ^ 14 < bound ↔ pa < bound) := by
    intro bound aligned
    omega
  have start : ∀ bound, bound % 2 ^ 14 = 0 → (bound ≤ pa / 2 ^ 14 * 2 ^ 14 ↔ bound ≤ pa) := by
    intro bound aligned
    omega
  have bottom : layout.stackBottom % 2 ^ 14 = 0 := by
    rw [placed.stack_bottom]
    have aligned := placed.guard_aligned
    omega
  unfold documented
  simp only [edge _ placed.text_aligned, edge _ placed.rodata_aligned, edge _ placed.guard_aligned, edge _ bottom,
    edge 0x08020000 rfl, edge 0x09004000 rfl, edge 0x40000000 rfl, edge 0x40200000 rfl, edge 0x60000000 rfl,
    edge 0x62000000 rfl, start 0x08000000 rfl, start 0x09000000 rfl]

theorem documented_rest (pa : Nat) (past : 0x42000000 ≤ pa) :
    documented layout pa = if pa < 0x60000000 then some .rw else if pa < 0x62000000 then some .device else none := by
  have placed := layout.placed
  obtain ⟨fits, top, bottom⟩ := And.intro placed.fits (And.intro placed.stack_top placed.stack_bottom)
  obtain ⟨rodata, guard⟩ := And.intro layout.rodata_above layout.guard_above
  rw [documented, if_neg (by omega), if_neg (by omega), if_neg (by omega), if_neg (by omega), if_neg (by omega),
    if_neg (by omega), if_neg (by omega), if_neg (by omega)]

theorem table_small (k : Nat) (within : k < 14) : layout.table k < 2 ^ 48 := by
  have placed := layout.placed
  obtain ⟨below, fits⟩ := And.intro placed.tables_below placed.fits
  obtain ⟨top, bottom⟩ := And.intro placed.stack_top placed.stack_bottom
  unfold Layout.table tableAt
  omega

theorem table_aligned (k : Nat) : layout.table k % 2 ^ 14 = 0 := by
  have aligned := layout.placed.tables_aligned
  unfold Layout.table tableAt
  omega

variable (zeroed : Zeroed layout mem)
include zeroed

theorem boot_entry (level k i : Nat) (within : k < 14) (small : i < 2048) :
    entry (bootMemory layout mem) level (layout.table k) i = decode level (bootWord layout k i) := by
  rw [entry, if_pos small, boot_memory_word layout mem zeroed k i within small]

theorem boot_trunk (i j : Nat) (rest : List Nat) (i_small : i < 2048) (j_small : j < 2048) :
    TableTree.lookup (entry (bootMemory layout mem)) 0 (layout.table 0) (i :: j :: rest) =
      if i = 0 ∧ j = 0 then TableTree.lookup (entry (bootMemory layout mem)) 2 (layout.table 2) rest else none := by
  refine tree_trunk layout.tables (loadedPage layout 0) mem ?_ layout.placed.tables_aligned zeroed i j rest i_small j_small
  have placed := layout.placed
  obtain ⟨below, fits⟩ := And.intro placed.tables_below placed.fits
  obtain ⟨top, bottom⟩ := And.intro placed.stack_top placed.stack_bottom
  omega

theorem boot_mmio (va i : Nat) (small : i < 2048) (slot : va / 2 ^ 14 % 2048 = i) :
    (TableTree.lookup (entry (bootMemory layout mem)) 3 (layout.table 4) [i]).map (target va) =
      (documented layout (4 * 2 ^ 25 + va % 2 ^ 25)).map fun a => (4 * 2 ^ 25 + va % 2 ^ 25, a.access) := by
  have device : ∀ pa, pa < 2 ^ 48 → pa % 2 ^ 14 = 0 → 4 * 2 ^ 25 + va % 2 ^ 25 = pa + va % 2 ^ 14 →
      documented layout (4 * 2 ^ 25 + va % 2 ^ 25) = some .device →
      Option.map (target va) (some (pageDesc pa .device, [])) =
        (documented layout (4 * 2 ^ 25 + va % 2 ^ 25)).map fun a => (4 * 2 ^ 25 + va % 2 ^ 25, a.access) := by
    intro pa bounded aligned leads shown
    rw [shown, Option.map_some, Option.map_some, target_page va pa .device bounded aligned, leads]
  rw [TableTree.lookup, boot_entry layout mem zeroed 3 4 i (by omega) small, bootWord, treeWord]
  by_cases uart : i = 1024
  · rw [if_pos uart, decode_page _ _ rfl]
    refine device _ (by omega) rfl (by omega) ?_
    rw [documented, if_neg (by omega), if_pos (by omega)]
  · rw [if_neg uart]
    by_cases gic : i < 8
    · rw [if_pos gic, decode_page _ _ (by omega)]
      refine device _ (by omega) (by omega) (by omega) ?_
      rw [documented, if_pos (by omega)]
    · rw [if_neg gic, decode_zero, documented, if_neg (by omega), if_neg (by omega), if_pos (by omega)]
      rfl

theorem boot_kernel (va i : Nat) (small : i < 2048) (slot : va / 2 ^ 14 % 2048 = i) :
    (TableTree.lookup (entry (bootMemory layout mem)) 3 (layout.table 3) [i]).map (target va) =
      (documented layout (32 * 2 ^ 25 + va % 2 ^ 25)).map fun a => (32 * 2 ^ 25 + va % 2 ^ 25, a.access) := by
  have base : ramBase = 32 * 2 ^ 25 := rfl
  have page : (32 * 2 ^ 25 + va % 2 ^ 25) / 2 ^ 14 * 2 ^ 14 = ramBase + i * 2 ^ 14 := by omega
  have leads : ramBase + i * 2 ^ 14 + va % 2 ^ 14 = 32 * 2 ^ 25 + va % 2 ^ 25 := by omega
  rw [TableTree.lookup, boot_entry layout mem zeroed 3 3 i (by omega) small, bootWord, treeWord, kernel_page layout i small,
    ← documented_page layout (32 * 2 ^ 25 + va % 2 ^ 25), page]
  cases documented layout (ramBase + i * 2 ^ 14) with
  | none =>
      rw [Option.map_none, Option.getD_none, decode_zero]
      rfl
  | some a =>
      rw [Option.map_some, Option.getD_some, decode_page _ a (by omega), Option.map_some, ← leads]
      exact congrArg some (target_page va _ a (by omega) (by omega))

theorem boot_translate (va : Nat) (high : va >>> 48 = 0xFFFF) :
    translate (bootMemory layout mem) (layout.table 0) va =
      (documented layout (va - kernelBase)).map fun a => (va - kernelBase, a.access) := by
  obtain ⟨x, small, at_⟩ : ∃ x, x < 2 ^ 48 ∧ va = kernelBase + x := by
    rw [Nat.shiftRight_eq_div_pow] at high
    unfold kernelBase
    exact ⟨va - 0xFFFF000000000000, by omega, by omega⟩
  have based : kernelBase = 0xFFFF * 2 ^ 48 := rfl
  rw [show va - kernelBase = x by omega, translate, indices_eq,
    boot_trunk layout mem zeroed _ _ _ (by omega) (Nat.mod_lt _ (by decide))]
  by_cases low : x < 2 ^ 36
  · rw [if_pos (by omega)]
    generalize slot : va / 2 ^ 25 % 2048 = i
    have inside : x = i * 2 ^ 25 + va % 2 ^ 25 := by omega
    rw [TableTree.lookup, boot_entry layout mem zeroed 2 2 i (by omega) (by omega), boot_word_trunk]
    by_cases mmio : i = 4
    · subst mmio
      rw [if_pos rfl, decode_table 2 _ (by omega) (table_small layout 4 (by omega)) (table_aligned layout 4), inside]
      exact boot_mmio layout mem zeroed va _ (Nat.mod_lt _ (by decide)) rfl
    · by_cases kernel : i = 32
      · subst kernel
        rw [if_neg (by omega), if_pos rfl,
          decode_table 2 _ (by omega) (table_small layout 3 (by omega)) (table_aligned layout 3), inside]
        exact boot_kernel layout mem zeroed va _ (Nat.mod_lt _ (by decide)) rfl
      · rw [if_neg mmio, if_neg kernel]
        by_cases ram : 33 ≤ i ∧ i < 48
        · rw [if_pos ram, decode_block _ _ (by omega), documented_rest layout x (by omega), if_pos (by omega)]
          exact congrArg some ((target_block _ _ _ _ (by omega) (by omega)).trans (by rw [← inside]))
        · rw [if_neg ram]
          by_cases window : i = 48
          · rw [if_pos window, decode_block _ _ rfl, documented_rest layout x (by omega), if_neg (by omega),
              if_pos (by omega)]
            have leads : 0x60000000 + va % 2 ^ 25 = x := by omega
            exact congrArg some ((target_block _ _ _ _ (by omega) (by omega)).trans (by rw [leads]))
          · rw [if_neg window, decode_zero]
            by_cases below : i < 32
            · rw [documented, if_neg (by omega), if_neg (by omega), if_pos (by omega)]
              rfl
            · rw [documented_rest layout x (by omega), if_neg (by omega), if_neg (by omega)]
              rfl
  · rw [if_neg (by omega), documented_rest layout x (by omega), if_neg (by omega), if_neg (by omega)]
    rfl

end

-- Where the five tables of the boot tree hang.
def bootPath : Nat → Option (List Nat)
  | 0 => some []
  | 1 => some [0]
  | 2 => some [0, 0]
  | 3 => some [0, 0, 32]
  | 4 => some [0, 0, 4]
  | _ => none

def bootPlace (layout : Layout) (t : Nat) : Option (List Nat) :=
  if layout.tables ≤ t ∧ (t - layout.tables) % 2 ^ 14 = 0 then bootPath ((t - layout.tables) / 2 ^ 14) else none

section
variable (layout : Layout) (mem : Memory)

theorem boot_place_table (k : Nat) : bootPlace layout (layout.table k) = bootPath k := by
  unfold bootPlace Layout.table tableAt
  rw [Nat.add_sub_cancel_left, Nat.mul_div_cancel _ (Nat.two_pow_pos 14), Nat.mul_mod_left,
    if_pos ⟨Nat.le_add_right _ _, rfl⟩]

theorem boot_path_cases (k : Nat) (path : List Nat) (hangs : bootPath k = some path) :
    k = 0 ∧ path = [] ∨ k = 1 ∧ path = [0] ∨ k = 2 ∧ path = [0, 0] ∨ k = 3 ∧ path = [0, 0, 32] ∨
      k = 4 ∧ path = [0, 0, 4] := by
  unfold bootPath at hangs
  split at hangs <;> cases hangs <;> simp

theorem boot_place_cases (t : Nat) (path : List Nat) (hangs : bootPlace layout t = some path) :
    ∃ k, k < 5 ∧ t = layout.table k ∧ bootPath k = some path := by
  unfold bootPlace at hangs
  split_ifs at hangs with slot
  have which := boot_path_cases _ path hangs
  refine ⟨(t - layout.tables) / 2 ^ 14, by omega, ?_, hangs⟩
  unfold Layout.table tableAt
  omega

theorem decode_bottom (desc t : Nat) : decode 3 desc ≠ .table t := by
  unfold decode
  split <;> first | exact TableEntry.noConfusion | simp_all

theorem boot_links (k i u : Nat) (path : List Nat) (hangs : bootPath k = some path)
    (found : decode path.length (bootWord layout k i) = .table u) :
    ∃ k', u = layout.table k' ∧ bootPath k' = some (path ++ [i]) := by
  have small := table_small layout
  have aligned := table_aligned layout
  rcases boot_path_cases k path hangs with ⟨rfl, rfl⟩ | ⟨rfl, rfl⟩ | ⟨rfl, rfl⟩ | ⟨rfl, rfl⟩ | ⟨rfl, rfl⟩
  · rw [bootWord, treeWord] at found
    split_ifs at found with first
    · rw [decode_table _ _ (by decide) (small 1 (by omega)) (aligned 1)] at found
      cases found
      exact ⟨1, rfl, by rw [first]; rfl⟩
    · rw [decode_zero] at found
      cases found
  · rw [bootWord, treeWord] at found
    split_ifs at found with first
    · rw [decode_table _ _ (by decide) (small 2 (by omega)) (aligned 2)] at found
      cases found
      exact ⟨2, rfl, by rw [first]; rfl⟩
    · rw [decode_zero] at found
      cases found
  · rw [bootWord, treeWord] at found
    split_ifs at found with mmio kernel ram window
    · rw [decode_table _ _ (by decide) (small 4 (by omega)) (aligned 4)] at found
      cases found
      exact ⟨4, rfl, by rw [mmio]; rfl⟩
    · rw [decode_table _ _ (by decide) (small 3 (by omega)) (aligned 3)] at found
      cases found
      exact ⟨3, rfl, by rw [kernel]; rfl⟩
    · have leaf := (decode_block (i * 2 ^ 25) .rw (by omega)).symm.trans found
      cases leaf
    · have leaf := (decode_block 0x60000000 .device rfl).symm.trans found
      cases leaf
    · rw [decode_zero] at found
      cases found
  · exact absurd found (decode_bottom _ u)
  · exact absurd found (decode_bottom _ u)

theorem boot_parent (k i : Nat) (path : List Nat) (hangs : bootPath k = some (path ++ [i])) :
    ∃ parent, parent < 3 ∧ i < 2048 ∧ bootPath parent = some path ∧
      decode path.length (bootWord layout parent i) = .table (layout.table k) := by
  have small := table_small layout
  have aligned := table_aligned layout
  have split : ∀ (front : List Nat) (last : Nat), path ++ [i] = front ++ [last] → path = front ∧ i = last := by
    intro front last same
    obtain ⟨paths, lasts⟩ := List.append_inj' same rfl
    exact ⟨paths, List.singleton_inj.mp lasts⟩
  rcases boot_path_cases k _ hangs with ⟨rfl, at_⟩ | ⟨rfl, at_⟩ | ⟨rfl, at_⟩ | ⟨rfl, at_⟩ | ⟨rfl, at_⟩
  · exact absurd at_ (by simp)
  · obtain ⟨rfl, rfl⟩ := split [] 0 at_
    have word : bootWord layout 0 0 = tableDesc (layout.table 1) := by rw [bootWord, treeWord, if_pos rfl]
    refine ⟨0, by omega, by omega, rfl, ?_⟩
    rw [word]
    exact decode_table _ _ (by decide) (small 1 (by omega)) (aligned 1)
  · obtain ⟨rfl, rfl⟩ := split [0] 0 at_
    have word : bootWord layout 1 0 = tableDesc (layout.table 2) := by rw [bootWord, treeWord, if_pos rfl]
    refine ⟨1, by omega, by omega, rfl, ?_⟩
    rw [word]
    exact decode_table _ _ (by decide) (small 2 (by omega)) (aligned 2)
  · obtain ⟨rfl, rfl⟩ := split [0, 0] 32 at_
    have word : bootWord layout 2 32 = tableDesc (layout.table 3) := by rw [bootWord, treeWord, if_neg (by omega), if_pos rfl]
    refine ⟨2, by omega, by omega, rfl, ?_⟩
    rw [word]
    exact decode_table _ _ (by decide) (small 3 (by omega)) (aligned 3)
  · obtain ⟨rfl, rfl⟩ := split [0, 0] 4 at_
    have word : bootWord layout 2 4 = tableDesc (layout.table 4) := by rw [bootWord, treeWord, if_pos rfl]
    refine ⟨2, by omega, by omega, rfl, ?_⟩
    rw [word]
    exact decode_table _ _ (by decide) (small 4 (by omega)) (aligned 4)

variable (zeroed : Zeroed layout mem)
include zeroed

theorem boot_rooted : TableTree.Rooted (entry (bootMemory layout mem)) (layout.table 0) (bootPlace layout) := by
  have reached := boot_place_table layout
  refine ⟨fun t => ⟨fun hangs => ?_, fun top => by rw [top, reached]; rfl⟩, fun t path i u hangs found => ?_,
    fun u path i hangs => ?_⟩
  · obtain ⟨k, _, rfl, top⟩ := boot_place_cases layout t [] hangs
    have which := boot_path_cases k [] top
    simp only [List.nil_eq, reduceCtorEq, and_false, or_false, and_true] at which
    rw [which]
  · obtain ⟨k, within, rfl, at_k⟩ := boot_place_cases layout t path hangs
    by_cases inside : i < 2048
    · rw [boot_entry layout mem zeroed _ k i (by omega) inside] at found
      obtain ⟨k', rfl, onto⟩ := boot_links layout k i u path at_k found
      rw [reached, onto]
    · rw [entry, if_neg inside] at found
      cases found
  · obtain ⟨k, _, rfl, at_k⟩ := boot_place_cases layout u (path ++ [i]) hangs
    obtain ⟨parent, within, inside, above, found⟩ := boot_parent layout k i path at_k
    exact ⟨layout.table parent, (reached parent).trans above, by
      rw [boot_entry layout mem zeroed _ parent i (by omega) inside, found]⟩

end

-- What a walk shows of an address: the leaf with its rights, or a fault.
def Walk.Shows (walk : Walk) (pa : Nat) : Option Attr → Prop
  | some a => ∃ desc, walk = .leaf pa desc ∧ access desc = a.access
  | none => ∃ level desc, walk = .fault level desc

theorem shows_of_translate (known : Nat → Bool) (s : State) (va pa : Nat) (a : Option Attr) (high : va >>> 48 = 0xFFFF)
    (comes : Nat → Nat → Prop)
    (onward : ∀ level t i u, comes level t → entry s.mem level t i = .table u → comes (level + 1) u)
    (knows : ∀ level t, comes level t → known t = true) (top : s.ttbr1 &&& 0x0000FFFFFFFFFFFE = s.ttbr1)
    (here : comes 0 s.ttbr1) (maps : translate s.mem s.ttbr1 va = a.map fun a => (pa, a.access)) :
    (s.walkWith known va).Shows pa a := by
  have found := walk_finds known s.mem va comes onward knows (indices va) 0 s.ttbr1 rfl (by omega) (indices_small va) here
  rw [State.walkWith, if_pos high, top]
  unfold translate at maps
  cases result : TableTree.lookup (entry s.mem) 0 s.ttbr1 (indices va) with
  | none =>
      rw [result] at found maps
      cases a with
      | none => exact found
      | some a => cases maps
  | some hit =>
      rw [result] at found maps
      cases a with
      | none => cases maps
      | some a =>
          have pair := Option.some.inj maps
          refine ⟨hit.1, ?_, congrArg Prod.snd pair⟩
          rw [found, congrArg Prod.fst pair]

-- For every link layout, what the builder makes out of zeroed tables is the
-- documented map, at every address of the kernel's half.
theorem boot_memory_map (layout : Layout) (mmfr0 : Nat) (mem : Memory) (present : mmfr0 >>> 20 &&& 0xF ≠ 0)
    (zeroed : Zeroed layout mem) :
    ∃ root built, opalBuildTables layout 0 mmfr0 mem = some (root, built) ∧
      ∀ va, va >>> 48 = 0xFFFF →
        ((opalMmuEnable root built).walk layout va).Shows (va - kernelBase) (documented layout (va - kernelBase)) := by
  refine ⟨layout.table 0, bootMemory layout mem, build_tables layout mmfr0 mem present, fun va high => ?_⟩
  have rooted := boot_rooted layout mem zeroed
  have placed := layout.placed
  have maps := boot_translate layout mem zeroed va high
  unfold State.walk
  generalize va - kernelBase = pa at maps ⊢
  refine shows_of_translate layout.inTables _ va pa _ high
    (fun level t => ∃ path, bootPlace layout t = some path ∧ path.length = level) ?_ ?_ ?_ ?_ maps
  · rintro level t i u ⟨path, hangs, rfl⟩ linked
    exact ⟨path ++ [i], rooted.links t path i u hangs linked, List.length_append⟩
  · rintro level t ⟨path, hangs, _⟩
    obtain ⟨k, small, rfl, _⟩ := boot_place_cases layout t path hangs
    unfold Layout.inTables Layout.table tableAt Layout.tablesLen granule
    simp only [decide_eq_true_eq]
    omega
  · exact root_kept (layout.table 0) (table_small layout 0 (by omega)) (table_aligned layout 0)
  · exact ⟨[], (rooted.root _).mpr rfl, rfl⟩

def sampleLayout : Layout where
  textEnd := 0x40240000
  rodataEnd := 0x40280000
  guardBottom := 0x40300000
  stackBottom := 0x40304000
  stackTop := 0x40314000
  tables := 0x40280000
  userTables := 0x402B8000
  userCodePage := 0x402C8000
  userStackPage := 0x402CC000
  taskMemA := 0x402D0000
  taskMemB := 0x402E8000
  text_above := by decide
  rodata_above := by decide
  guard_above := by decide
  guard_size := by decide
  stack_size := by decide
  image_fits := by decide
  text_aligned := by decide
  rodata_aligned := by decide
  guard_aligned := by decide
  aligned := by decide
  in_bss := by decide
  apart := by decide

theorem boot_memory_map_text :
    ∃ root built, opalBuildTables sampleLayout 0 0x100000 (fun _ => 0) = some (root, built) ∧
      ((opalMmuEnable root built).walk sampleLayout 0xFFFF000040200000).Shows 0x40200000 (some .textRx) := by
  obtain ⟨root, built, builds, maps⟩ := boot_memory_map sampleLayout 0x100000 (fun _ => 0) (by decide) fun _ _ _ => rfl
  exact ⟨root, built, builds, maps 0xFFFF000040200000 rfl⟩

end Mmu

end Opal
