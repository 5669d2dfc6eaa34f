import Opal.Placement
import Opal.UserTables

set_option autoImplicit false

namespace Opal

namespace Mmu

def virtToPhys (va : Nat) : Nat := (va + (2 ^ 64 - kernelBase)) % 2 ^ 64

-- Where code that runs high finds a static: at its link-time address above
-- KERNEL_BASE, wherever the image has been loaded.
def kernelVa (link : Nat) : Nat := kernelBase + link

def UserSpace.parts (space : UserSpace) : List Nat := [space.l0, space.l1, space.l2, space.l3, space.code, space.stack]

-- The statics whose virt_to_phys the table walker gets to see, by their
-- link-time addresses: from condemn_low_half, from ensure_table, and from the
-- builders of the user address spaces.
inductive Layout.Handed (layout : Layout) : Nat → Prop where
  | emptyRoot : layout.Handed layout.emptyRoot
  | runtime (idx : Nat) (inside : idx < 8) : layout.Handed (layout.runtime idx)
  | user (space : UserSpace) (link : Nat)
      (one : space ∈ [layout.singleSpace, Layout.spaceAt layout.taskMemA, Layout.spaceAt layout.taskMemB])
      (part : link ∈ space.parts) : layout.Handed link

-- A table of TTBR1's tree, as the builder leaves it or from the pool.
def Layout.TreeTable (layout : Layout) (root : Nat) (built : Memory) (t : Nat) : Prop :=
  (∃ path, TableTree.Hangs (entry built) root path t) ∨ ∃ idx, idx < 8 ∧ t = virtToPhys (kernelVa (layout.runtime idx))

-- The kernel's arithmetic agrees with its own tables.
structure Layout.Linear (layout : Layout) (root : Nat) (built : Memory) : Prop where
  down : ∀ link, layout.Handed link →
    ((opalMmuEnable root built).hardwareWalk (kernelVa link)).translation.map Prod.fst = some (virtToPhys (kernelVa link))
  up : ∀ t, layout.TreeTable root built t →
    ((opalMmuEnable root built).hardwareWalk (physToVirt t)).translation.map Prod.fst = some t

theorem virt_to_phys_link (link : Nat) (small : link < 2 ^ 48) : virtToPhys (kernelVa link) = link := by
  unfold virtToPhys kernelVa kernelBase
  omega

theorem phys_to_virt_small (pa : Nat) (small : pa < 2 ^ 48) : physToVirt pa = kernelVa pa := by
  unfold physToVirt kernelVa kernelBase
  omega

section
variable (layout : Layout)

theorem handed_bss (link : Nat) (handed : layout.Handed link) : layout.rodataEnd ≤ link ∧ link + 2 ^ 14 ≤ layout.guardBottom := by
  have bss := layout.in_bss
  simp only [List.forall_mem_cons, List.not_mem_nil, false_implies, implies_true, and_true] at bss
  obtain ⟨tables, userTables, code, stack, taskA, taskB⟩ := bss
  have size : granule = 2 ^ 14 := rfl
  rw [size] at tables userTables code stack taskA taskB
  have within : ∀ base k n, layout.rodataEnd ≤ base ∧ base + n * 2 ^ 14 ≤ layout.guardBottom → k < n →
      layout.rodataEnd ≤ base + k * 2 ^ 14 ∧ base + k * 2 ^ 14 + 2 ^ 14 ≤ layout.guardBottom := by
    intro base k n bounds less
    omega
  cases handed with
  | emptyRoot => exact within layout.tables 5 14 tables (by decide)
  | runtime idx inside => exact within layout.tables (6 + idx) 14 tables (by omega)
  | user space link one part =>
      have task : ∀ mem, layout.rodataEnd ≤ mem ∧ mem + 6 * 2 ^ 14 ≤ layout.guardBottom → link ∈ (Layout.spaceAt mem).parts →
          layout.rodataEnd ≤ link ∧ link + 2 ^ 14 ≤ layout.guardBottom := by
        intro mem bounds part
        simp only [UserSpace.parts, Layout.spaceAt, List.mem_cons, List.not_mem_nil, or_false, size] at part
        omega
      simp only [List.mem_cons, List.not_mem_nil, or_false] at one
      rcases one with rfl | rfl | rfl
      · simp only [UserSpace.parts, Layout.singleSpace, List.mem_cons, List.not_mem_nil, or_false, size] at part
        omega
      · exact task layout.taskMemA taskA part
      · exact task layout.taskMemB taskB part

structure Layout.Bss (layout : Layout) (link : Nat) : Prop where
  image : linkBase ≤ link ∧ link < layout.stackTop
  small : link < 0x60000000
  data : documented layout link = some .rw

theorem bss (link : Nat) (low : layout.rodataEnd ≤ link) (high : link < layout.guardBottom) : layout.Bss link := by
  have placed := layout.placed
  obtain ⟨image_fits, top, bottom⟩ := And.intro placed.fits (And.intro placed.stack_top placed.stack_bottom)
  obtain ⟨text, rodata⟩ := And.intro layout.text_above layout.rodata_above
  refine ⟨⟨?_, by omega⟩, by omega, ?_⟩
  · unfold linkBase
    omega
  · rw [documented, if_neg (by omega), if_neg (by omega), if_neg (by omega), if_neg (by omega), if_neg (by omega),
      if_neg (by omega), if_pos (by omega)]

theorem Layout.Handed.bss {layout : Layout} {link : Nat} (handed : layout.Handed link) : layout.Bss link := by
  have bounds := handed_bss layout link handed
  exact Mmu.bss layout link bounds.1 (by omega)

theorem table_bss (k : Nat) (within : k < 14) : layout.Bss (layout.table k) := by
  obtain ⟨above, below_⟩ := And.intro layout.placed.tables_above layout.placed.tables_below
  refine bss layout _ ?_ ?_ <;> unfold Layout.table tableAt <;> omega

theorem Layout.Bss.low {layout : Layout} {link : Nat} (place : layout.Bss link) : link < 2 ^ 48 := by
  have small := place.small
  omega

-- The link-time addresses that the models of those functions work with are
-- what virt_to_phys gives.
theorem Layout.Bss.link {layout : Layout} {link : Nat} (place : layout.Bss link) : virtToPhys (kernelVa link) = link :=
  virt_to_phys_link link place.low

variable (load : Nat) (loads : layout.Loads load) (mem : Memory) (zeroed : ∀ a, tableAt (loadedAt load layout.tables) 0 ≤ a →
  a < tableAt (loadedAt load layout.tables) 14 → mem a = 0)
include loads zeroed

theorem static_translation (link : Nat) (place : layout.Bss link) :
    ((loadedState layout load mem).hardwareWalk (kernelVa link)).translation.map Prod.fst = some (loadedAt load link) := by
  have first : linkBase = 0x40200000 := rfl
  have above := place.image.1
  have found := (loaded_high layout load loads mem zeroed link (by omega) place.small).1
  rw [place.data, Layout.leads, if_pos place.image] at found
  rw [kernelVa, found]
  rfl

end

theorem loaded_here (link : Nat) (above : linkBase ≤ link) : loadedAt linkBase link = link := Nat.add_sub_of_le above

theorem boot_delta_zero : bootDelta linkBase = 0 := by
  unfold bootDelta linkBase
  omega

theorem tree_table (layout : Layout) (mem : Memory) (zeroed : Zeroed layout mem) (t : Nat)
    (table : layout.TreeTable (layout.table 0) (bootMemory layout mem) t) : ∃ k, k < 14 ∧ t = layout.table k := by
  rcases table with ⟨path, hangs⟩ | ⟨idx, inside, at_⟩
  · obtain ⟨k, within, at_, _⟩ := boot_place_cases layout t path ((boot_rooted layout mem zeroed).hangs path t hangs)
    exact ⟨k, by omega, at_⟩
  · exact ⟨6 + idx, by omega, at_.trans (table_bss layout (6 + idx) (by omega)).link⟩

theorem placed_linear (layout : Layout) (mem : Memory) (loads : layout.Loads linkBase) (zeroed : Zeroed layout mem) :
    layout.Linear (layout.table 0) (bootMemory layout mem) := by
  have tables : loadedAt linkBase layout.tables = layout.tables :=
    loaded_here layout.tables (by have first := (table_bss layout 0 (by decide)).image.1; unfold Layout.table tableAt at first; omega)
  have same : opalMmuEnable (layout.table 0) (bootMemory layout mem) = loadedState layout linkBase mem := by
    rw [loaded_state, tables, boot_delta_zero, bootMemory]
  have static : ∀ link, layout.Bss link →
      ((opalMmuEnable (layout.table 0) (bootMemory layout mem)).hardwareWalk (kernelVa link)).translation.map Prod.fst =
        some link := by
    intro link place
    rw [same, static_translation layout linkBase loads mem (by rw [tables]; exact zeroed) link place,
      loaded_here link place.image.1]
  refine ⟨fun link handed => ?_, fun t table => ?_⟩
  · rw [handed.bss.link]
    exact static link handed.bss
  · obtain ⟨k, within, rfl⟩ := tree_table layout mem zeroed t table
    have place := table_bss layout k within
    rw [phys_to_virt_small _ place.low]
    exact static _ place

-- virt_to_phys and phys_to_virt are right about what the builder maps exactly
-- when the image has been loaded where it is linked.
theorem linear_iff (layout : Layout) (load : Nat) (loads : layout.Loads load) (mmfr0 : Nat) (present : mmfr0 >>> 20 &&& 0xF ≠ 0)
    (mem : Memory)
    (zeroed : ∀ a, loadedAt load layout.tables ≤ a → a < loadedAt load layout.tables + Layout.tablesLen → mem a = 0) :
    ∃ root built, opalBuildTables layout (bootDelta load) mmfr0 mem = some (root, built) ∧
      (layout.Linear root built ↔ load = linkBase) := by
  obtain ⟨loaded, small, aligned⟩ := tables_loaded layout load loads
  have blank := blank_tables layout load mem zeroed
  have room : loadedAt load layout.tables + 14 * 2 ^ 14 < 2 ^ 64 := Nat.lt_of_le_of_lt small (by decide)
  refine ⟨_, _, build_tree layout (bootDelta load) mmfr0 mem present _ loaded room, fun linear => ?_, ?_⟩
  · -- The empty root is where its subtraction says only if nothing has moved.
    have place := @Layout.Handed.bss layout _ .emptyRoot
    have down := linear.down layout.emptyRoot .emptyRoot
    rw [← loaded_state, static_translation layout load loads mem blank _ place, place.link] at down
    have same := Option.some.inj down
    have above := place.image.1
    unfold loadedAt at same
    omega
  · rintro rfl
    have first := (table_bss layout 0 (by decide)).image.1
    have tables : loadedAt linkBase layout.tables = layout.tables :=
      loaded_here layout.tables (by unfold Layout.table tableAt at first; omega)
    rw [tables] at blank ⊢
    rw [boot_delta_zero, ← bootMemory]
    exact placed_linear layout mem loads blank

theorem linear_iff_linked : ∃ root built, opalBuildTables sampleLayout (bootDelta linkBase) 0x100000 (fun _ => 0) =
    some (root, built) ∧ (sampleLayout.Linear root built ↔ linkBase = linkBase) :=
  linear_iff sampleLayout linkBase ⟨by decide, by decide⟩ 0x100000 (by decide) (fun _ => 0) fun _ _ _ => rfl

-- 16 KiB further up condemn_low_half installs a root that is not the empty one.
theorem displaced_root : ∃ root built, opalBuildTables sampleLayout (bootDelta (linkBase + granule)) 0x100000 (fun _ => 0) =
    some (root, built) ∧
      ((opalMmuEnable root built).hardwareWalk (kernelVa sampleLayout.emptyRoot)).translation.map Prod.fst ≠
        some (virtToPhys (kernelVa sampleLayout.emptyRoot)) := by
  have loads : sampleLayout.Loads (linkBase + granule) := ⟨by decide, by decide⟩
  obtain ⟨loaded, small, aligned⟩ := tables_loaded sampleLayout _ loads
  have room : loadedAt (linkBase + granule) sampleLayout.tables + 14 * 2 ^ 14 < 2 ^ 64 := Nat.lt_of_le_of_lt small (by decide)
  refine ⟨_, _, build_tree sampleLayout _ 0x100000 (fun _ => 0) (by decide) _ loaded room, ?_⟩
  rw [← loaded_state, static_translation sampleLayout _ loads (fun _ => 0) (fun _ _ _ => rfl) _ Layout.Handed.emptyRoot.bss]
  decide

end Mmu

end Opal
