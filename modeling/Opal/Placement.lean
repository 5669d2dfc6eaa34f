import Opal.BootMap

set_option autoImplicit false

namespace Opal

namespace Mmu

-- _image_start as it is linked.
def linkBase : Nat := 0x40200000

-- x23: where the image lies, less where it is linked.
def bootDelta (load : Nat) : Nat := (load + (2 ^ 64 - linkBase)) % 2 ^ 64

-- The image and the boot stack lie in RAM.
structure Layout.Fits (layout : Layout) (load : Nat) : Prop where
  aligned : load % granule = 0
  low : ramBase ≤ load
  high : load + (layout.stackTop - linkBase) ≤ ramBase + ramSize

-- They lie somewhere in the physical address space.
structure Layout.Loads (layout : Layout) (load : Nat) : Prop where
  aligned : load % granule = 0
  high : load + (layout.stackTop - linkBase) ≤ 2 ^ 48

theorem Layout.Fits.loads {layout : Layout} {load : Nat} (fits : layout.Fits load) : layout.Loads load :=
  ⟨fits.aligned, Nat.le_trans fits.high (by decide)⟩

-- Where a link-time address of the image has been loaded.
def loadedAt (load pa : Nat) : Nat := load + (pa - linkBase)

-- What the stub needs of the tables between the MMU's enabling and its jump to
-- the high half. bootEnd is __boot_end_pa.
structure Boots (layout : Layout) (bootEnd load : Nat) (s : State) : Prop where
  image : ∀ pa, linkBase ≤ pa → pa < layout.stackTop →
    (s.hardwareWalk (kernelBase + pa)).Shows (loadedAt load pa) (documented layout pa)
  code : ∀ a, load ≤ a → a < loadedAt load bootEnd →
    ∃ rights, (s.hardwareWalk a).translation = some (a, rights) ∧ rights.el1Execute
  stack : ∀ a, loadedAt load layout.stackBottom ≤ a → a < loadedAt load layout.stackTop →
    (s.hardwareWalk a).translation = some (a, Attr.rw.access)
  alias_ : ∀ a, loadedAt load layout.stackBottom ≤ a → a < loadedAt load layout.stackTop →
    (s.hardwareWalk (kernelBase + a)).translation = some (a, Attr.rw.access)

-- Where the kernel's tree leads from an address of RAM.
def Layout.leads (layout : Layout) (load pa : Nat) : Nat :=
  if linkBase ≤ pa ∧ pa < layout.stackTop then loadedAt load pa else pa

section
variable (layout : Layout) (load : Nat) (loads : layout.Loads load)
include loads

theorem tables_loaded : (layout.tables + bootDelta load) % 2 ^ 64 = loadedAt load layout.tables ∧
    loadedAt load layout.tables + 14 * 2 ^ 14 ≤ 2 ^ 48 ∧ loadedAt load layout.tables % 2 ^ 14 = 0 := by
  have placed := layout.placed
  obtain ⟨above, below_⟩ := And.intro placed.tables_above placed.tables_below
  obtain ⟨top, bottom⟩ := And.intro placed.stack_top placed.stack_bottom
  obtain ⟨text, rodata⟩ := And.intro layout.text_above layout.rodata_above
  obtain ⟨load_aligned, high⟩ := loads
  have tables_aligned := placed.tables_aligned
  have size : granule = 2 ^ 14 := rfl
  have ram : ramBase = 0x40000000 ∧ ramBase + ramSize = 0x60000000 := ⟨rfl, rfl⟩
  rw [size] at load_aligned
  unfold bootDelta loadedAt
  unfold linkBase at high ⊢
  refine ⟨?_, ?_, ?_⟩ <;> omega

theorem loaded_page (i : Nat) (small : i < 2048) :
    loadedPage layout (bootDelta load) i =
      (documented layout (ramBase + i * 2 ^ 14)).map (pageDesc (layout.leads load (ramBase + i * 2 ^ 14))) := by
  have placed := layout.placed
  obtain ⟨image_fits, top, bottom⟩ := And.intro placed.fits (And.intro placed.stack_top placed.stack_bottom)
  obtain ⟨above, rodata, guard⟩ := And.intro layout.text_above (And.intro layout.rodata_above layout.guard_above)
  obtain ⟨load_aligned, high⟩ := loads
  have base : ramBase = 0x40000000 := rfl
  have ram : ramBase + ramSize = 0x60000000 := rfl
  have first : linkBase = 0x40200000 := rfl
  have delta : bootDelta load < 2 ^ 64 := Nat.mod_lt _ (Nat.two_pow_pos 64)
  have link : ∀ pa, pa < 2 ^ 48 → ((pa + bootDelta load) % 2 ^ 64 + (2 ^ 64 - bootDelta load)) % 2 ^ 64 = pa :=
    fun pa below => by omega
  have out : linkBase ≤ ramBase + i * 2 ^ 14 →
      (ramBase + i * 2 ^ 14 + bootDelta load) % 2 ^ 64 = loadedAt load (ramBase + i * 2 ^ 14) := by
    intro inImage
    unfold bootDelta loadedAt
    omega
  have start : ramBase + 0x200000 = linkBase := rfl
  have same : (if linkBase ≤ ramBase + i * 2 ^ 14 ∧ ramBase + i * 2 ^ 14 < layout.stackTop then
      (ramBase + i * 2 ^ 14 + bootDelta load) % 2 ^ 64 else ramBase + i * 2 ^ 14) =
        layout.leads load (ramBase + i * 2 ^ 14) := by
    unfold Layout.leads
    by_cases inImage : linkBase ≤ ramBase + i * 2 ^ 14 ∧ ramBase + i * 2 ^ 14 < layout.stackTop
    · rw [if_pos inImage, if_pos inImage, out inImage.1]
    · rw [if_neg inImage, if_neg inImage]
  rw [← documented_image layout _ (by omega) (by omega)]
  unfold loadedPage kernelPage
  rw [Nat.shiftLeft_eq]
  dsimp only
  simp only [link layout.textEnd (by omega), link layout.rodataEnd (by omega), link layout.guardBottom (by omega),
    link layout.stackBottom (by omega), link layout.stackTop (by omega), ge_iff_le, start, same]

omit loads in
theorem leads_page (pa : Nat) : layout.leads load (pa / 2 ^ 14 * 2 ^ 14) + pa % 2 ^ 14 = layout.leads load pa := by
  have placed := layout.placed
  obtain ⟨top, bottom⟩ := And.intro placed.stack_top placed.stack_bottom
  have edge := placed.guard_aligned
  unfold Layout.leads loadedAt linkBase
  by_cases inImage : 0x40200000 ≤ pa ∧ pa < layout.stackTop
  · rw [if_pos inImage, if_pos (by omega)]
    omega
  · rw [if_neg inImage, if_neg (by omega)]
    omega

theorem leads_small (pa : Nat) (ram : pa < 0x60000000) : layout.leads load pa < 2 ^ 48 := by
  have placed := layout.placed
  obtain ⟨load_aligned, high⟩ := loads
  have top : ramBase + ramSize = 0x60000000 := rfl
  unfold Layout.leads loadedAt
  split_ifs <;> omega

theorem leads_aligned (i : Nat) : layout.leads load (ramBase + i * 2 ^ 14) % 2 ^ 14 = 0 := by
  have load_aligned := loads.aligned
  have size : granule = 2 ^ 14 := rfl
  rw [size] at load_aligned
  unfold Layout.leads loadedAt ramBase linkBase
  split_ifs <;> omega

variable (mem : Memory) (zeroed : ∀ a, tableAt (loadedAt load layout.tables) 0 ≤ a →
  a < tableAt (loadedAt load layout.tables) 14 → mem a = 0)
include zeroed

theorem loaded_translate (va pa : Nat) (low : 0x40000000 ≤ pa) (high : pa < 0x60000000) (half : va % 2 ^ 48 = pa) :
    translate (treeMemory (loadedAt load layout.tables) (loadedPage layout (bootDelta load)) mem)
        (tableAt (loadedAt load layout.tables) 0) va =
      (documented layout pa).map fun a => (layout.leads load pa, a.access) := by
  obtain ⟨_, small, aligned⟩ := tables_loaded layout load loads
  have base : ramBase = 0x40000000 := rfl
  by_cases paged : pa < 0x42000000
  · have within : (pa - ramBase) / 2 ^ 14 < 2048 := by omega
    have page : ramBase + (pa - ramBase) / 2 ^ 14 * 2 ^ 14 = pa / 2 ^ 14 * 2 ^ 14 := by omega
    rw [tree_page _ _ mem small aligned zeroed va ((pa - ramBase) / 2 ^ 14) (by omega) (by omega), TableTree.lookup,
      tree_entry _ _ mem zeroed 3 3 _ (by omega) within, treeWord, loaded_page layout load loads _ within,
      ← documented_page layout pa, ← page]
    have bounded := leads_small layout load loads (ramBase + (pa - ramBase) / 2 ^ 14 * 2 ^ 14) (by omega)
    have edge := leads_aligned layout load loads ((pa - ramBase) / 2 ^ 14)
    cases documented layout (ramBase + (pa - ramBase) / 2 ^ 14 * 2 ^ 14) with
    | none =>
        rw [Option.map_none, Option.getD_none, decode_zero]
        rfl
    | some a =>
        rw [Option.map_some, Option.getD_some, decode_page _ a edge, Option.map_some, ← leads_page layout load pa, ← page]
        refine congrArg some ((target_page va _ a bounded edge).trans ?_)
        rw [show va % 2 ^ 14 = pa % 2 ^ 14 by omega]
  · have placed := layout.placed
    have image_fits := placed.fits
    rw [tree_block _ _ mem small aligned zeroed va (pa / 2 ^ 25) (by omega) (by omega),
      documented_rest layout pa (by omega), if_pos high, Option.map_some, Layout.leads, if_neg (by omega),
      show pa / 2 ^ 25 * 2 ^ 25 + va % 2 ^ 25 = pa by omega]

-- The MMU on, with the tree in both registers.
def loadedState (layout : Layout) (load : Nat) (mem : Memory) : State :=
  opalMmuEnable (tableAt (loadedAt load layout.tables) 0)
    (treeMemory (loadedAt load layout.tables) (loadedPage layout (bootDelta load)) mem)

omit loads zeroed in
theorem loaded_state : loadedState layout load mem =
    opalMmuEnable (tableAt (loadedAt load layout.tables) 0)
      (treeMemory (loadedAt load layout.tables) (loadedPage layout (bootDelta load)) mem) := rfl

theorem loaded_low (a : Nat) (low : 0x40000000 ≤ a) (high : a < 0x60000000) :
    ((loadedState layout load mem).hardwareWalk a).translation =
      (documented layout a).map fun attr => (layout.leads load a, attr.access) := by
  obtain ⟨_, small, aligned⟩ := tables_loaded layout load loads
  have top : tableAt (loadedAt load layout.tables) 0 &&& 0x0000FFFFFFFFFFFE = tableAt (loadedAt load layout.tables) 0 :=
    root_kept _ (table_at_small _ small 0 (by omega)) (table_at_aligned _ aligned 0)
  have maps := (walk_low (fun _ => true) (loadedState layout load mem) a (by rw [Nat.shiftRight_eq_div_pow]; omega)
    (fun _ _ => True) (fun _ _ _ _ _ _ => trivial) (fun _ _ _ => rfl) top trivial).trans
      (loaded_translate layout load loads mem zeroed a a low high (by omega))
  rw [hardware_walk_shown _ _ _ _ maps]
  exact maps

theorem loaded_high (pa : Nat) (low : 0x40000000 ≤ pa) (high : pa < 0x60000000) :
    ((loadedState layout load mem).hardwareWalk (kernelBase + pa)).translation =
        ((documented layout pa).map fun attr => (layout.leads load pa, attr.access)) ∧
      ((loadedState layout load mem).hardwareWalk (kernelBase + pa)).Shows (layout.leads load pa) (documented layout pa) := by
  obtain ⟨_, small, aligned⟩ := tables_loaded layout load loads
  have upper : (kernelBase + pa) >>> 48 = 0xFFFF := by
    rw [Nat.shiftRight_eq_div_pow]
    unfold kernelBase
    omega
  have half : (kernelBase + pa) % 2 ^ 48 = pa := by
    unfold kernelBase
    omega
  have top : tableAt (loadedAt load layout.tables) 0 &&& 0x0000FFFFFFFFFFFE = tableAt (loadedAt load layout.tables) 0 :=
    root_kept _ (table_at_small _ small 0 (by omega)) (table_at_aligned _ aligned 0)
  have maps := loaded_translate layout load loads mem zeroed (kernelBase + pa) pa low high half
  have walks := (walk_high (fun _ => true) (loadedState layout load mem) _ upper (fun _ _ => True)
    (fun _ _ _ _ _ _ => trivial) (fun _ _ _ => rfl) top trivial).trans maps
  rw [hardware_walk_shown _ _ _ _ walks]
  constructor
  · exact walks
  · exact shows_of_translate (fun _ => true) (loadedState layout load mem) _ _ _ upper (fun _ _ => True)
      (fun _ _ _ _ _ _ => trivial) (fun _ _ _ => rfl) top trivial maps

-- The image itself is always found where it was loaded.
theorem image_loaded (pa : Nat) (above : linkBase ≤ pa) (below_ : pa < layout.stackTop) :
    ((loadedState layout load mem).hardwareWalk (kernelBase + pa)).Shows (loadedAt load pa) (documented layout pa) := by
  have image_fits := layout.placed.fits
  have first : linkBase = 0x40200000 := rfl
  have found := (loaded_high layout load loads mem zeroed pa (by omega) (by omega)).2
  rwa [Layout.leads, if_pos ⟨above, below_⟩] at found

omit loads in
-- A displaced stub does not find its own first instruction.
theorem displaced_entry (fits : layout.Fits load) (displaced : load ≠ linkBase) (rights : Access) :
    ((loadedState layout load mem).hardwareWalk load).translation = some (load, rights) → rights.el1Execute = false := by
  have placed := layout.placed
  obtain ⟨image_fits, top, bottom⟩ := And.intro placed.fits (And.intro placed.stack_top placed.stack_bottom)
  obtain ⟨above, rodata, guard⟩ := And.intro layout.text_above (And.intro layout.rodata_above layout.guard_above)
  have first : linkBase = 0x40200000 := rfl
  have base : ramBase = 0x40000000 := rfl
  have ram : ramBase + ramSize = 0x60000000 := rfl
  have low := fits.low
  have high := fits.high
  intro found
  rw [loaded_low layout load fits.loads mem zeroed load (by omega) (by omega)] at found
  obtain ⟨a, shown, pair⟩ := Option.map_eq_some_iff.mp found
  obtain ⟨place, rfl⟩ := Prod.mk.inj pair
  by_cases inImage : linkBase ≤ load ∧ load < layout.stackTop
  · rw [Layout.leads, if_pos inImage, loadedAt] at place
    omega
  · have plain : a = .ro ∨ a = .rw := by
      unfold documented at shown
      by_cases window : load < 0x40200000
      · rw [if_neg (by omega), if_neg (by omega), if_neg (by omega), if_pos window] at shown
        exact .inl (Option.some.inj shown).symm
      · rw [if_neg (by omega), if_neg (by omega), if_neg (by omega), if_neg window, if_neg (by omega), if_neg (by omega),
          if_neg (by omega), if_neg (by omega), if_pos (by omega)] at shown
        exact .inr (Option.some.inj shown).symm
    rcases plain with rfl | rfl <;> rfl

end

theorem placed_boots (layout : Layout) (mem : Memory) (bootEnd : Nat) (within : bootEnd ≤ layout.textEnd)
    (fits : layout.Fits linkBase) (zeroed : ∀ a, tableAt (loadedAt linkBase layout.tables) 0 ≤ a →
      a < tableAt (loadedAt linkBase layout.tables) 14 → mem a = 0) :
    Boots layout bootEnd linkBase (loadedState layout linkBase mem) := by
  have placed := layout.placed
  obtain ⟨image_fits, top, bottom⟩ := And.intro placed.fits (And.intro placed.stack_top placed.stack_bottom)
  obtain ⟨above, rodata, guard⟩ := And.intro layout.text_above (And.intro layout.rodata_above layout.guard_above)
  have first : linkBase = 0x40200000 := rfl
  have same : ∀ pa, layout.leads linkBase pa = pa := by
    intro pa
    unfold Layout.leads loadedAt
    split_ifs <;> omega
  have moved : ∀ pa, linkBase ≤ pa → loadedAt linkBase pa = pa := fun pa past => by
    unfold loadedAt
    omega
  have stack : ∀ a, layout.stackBottom ≤ a → a < layout.stackTop → documented layout a = some .rw := by
    intro a low high
    rw [documented, if_neg (by omega), if_neg (by omega), if_neg (by omega), if_neg (by omega), if_neg (by omega),
      if_neg (by omega), if_neg (by omega), if_neg (by omega), if_pos (by omega)]
  refine ⟨image_loaded layout linkBase fits.loads mem zeroed, fun a low high => ?_, fun a low high => ?_, fun a low high => ?_⟩
  · have end_ : a < layout.textEnd := by
      by_cases some_ : linkBase ≤ bootEnd
      · rw [moved bootEnd some_] at high
        omega
      · unfold loadedAt at high
        omega
    have text : documented layout a = some .textRx := by
      rw [documented, if_neg (by omega), if_neg (by omega), if_neg (by omega), if_neg (by omega), if_pos end_]
    refine ⟨Attr.textRx.access, ?_, rfl⟩
    rw [loaded_low layout linkBase fits.loads mem zeroed a (by omega) (by omega), text, same]
    rfl
  · rw [moved _ (by omega)] at low high
    rw [loaded_low layout linkBase fits.loads mem zeroed a (by omega) (by omega), stack a low high, same]
    rfl
  · rw [moved _ (by omega)] at low high
    rw [(loaded_high layout linkBase fits.loads mem zeroed a (by omega) (by omega)).1, stack a low high, same]
    rfl

theorem blank_tables (layout : Layout) (load : Nat) (mem : Memory)
    (zeroed : ∀ a, loadedAt load layout.tables ≤ a → a < loadedAt load layout.tables + Layout.tablesLen → mem a = 0)
    (a : Nat) (low : tableAt (loadedAt load layout.tables) 0 ≤ a) (high : a < tableAt (loadedAt load layout.tables) 14) :
    mem a = 0 := by
  have first : tableAt (loadedAt load layout.tables) 0 = loadedAt load layout.tables := by
    rw [tableAt, Nat.zero_mul, Nat.add_zero]
  rw [first] at low
  rw [tableAt] at high
  exact zeroed a low high

-- The image is mapped to where it was loaded from every load address, but what
-- the stub needs of the low half it gets at its link address alone.
theorem boot_placement_iff (layout : Layout) (bootEnd : Nat) (some_ : linkBase < bootEnd) (within : bootEnd ≤ layout.textEnd)
    (load : Nat) (fits : layout.Fits load) (mmfr0 : Nat) (present : mmfr0 >>> 20 &&& 0xF ≠ 0) (mem : Memory)
    (zeroed : ∀ a, loadedAt load layout.tables ≤ a → a < loadedAt load layout.tables + Layout.tablesLen → mem a = 0) :
    ∃ root built, opalBuildTables layout (bootDelta load) mmfr0 mem = some (root, built) ∧
      (∀ pa, linkBase ≤ pa → pa < layout.stackTop →
        ((opalMmuEnable root built).hardwareWalk (kernelBase + pa)).Shows (loadedAt load pa) (documented layout pa)) ∧
      (Boots layout bootEnd load (opalMmuEnable root built) ↔ load = linkBase) := by
  obtain ⟨loaded, small, aligned⟩ := tables_loaded layout load fits.loads
  have blank := blank_tables layout load mem zeroed
  have room : loadedAt load layout.tables + 14 * 2 ^ 14 < 2 ^ 64 := Nat.lt_of_le_of_lt small (by decide)
  refine ⟨tableAt (loadedAt load layout.tables) 0, treeMemory (loadedAt load layout.tables) (loadedPage layout (bootDelta load)) mem,
    build_tree layout (bootDelta load) mmfr0 mem present _ loaded room, ?_⟩
  rw [← loaded_state]
  refine ⟨image_loaded layout load fits.loads mem blank, ?_⟩
  constructor
  · intro boots
    by_contra displaced
    obtain ⟨rights, found, executes⟩ := boots.code load (le_refl load)
      (Nat.lt_add_of_pos_right (Nat.sub_pos_of_lt some_))
    have plain := displaced_entry layout load mem blank fits displaced rights found
    rw [plain] at executes
    cases executes
  · rintro rfl
    exact placed_boots layout mem bootEnd within fits blank

-- At the link address the stub gets through.
theorem linked_stub_boots : ∃ root built, opalBuildTables sampleLayout (bootDelta linkBase) 0x100000 (fun _ => 0) =
    some (root, built) ∧ Boots sampleLayout 0x40200440 linkBase (opalMmuEnable root built) := by
  have fits : sampleLayout.Fits linkBase := ⟨by decide, by decide, by decide⟩
  obtain ⟨root, built, builds, _, boots⟩ := boot_placement_iff sampleLayout 0x40200440 (by decide) (by decide) linkBase fits
    0x100000 (by decide) (fun _ => 0) fun _ _ _ => rfl
  exact ⟨root, built, builds, boots.mpr rfl⟩

-- 128 MiB further up it does not find its next instruction.
theorem displaced_stub_stops : ∃ root built, opalBuildTables sampleLayout (bootDelta 0x48200000) 0x100000 (fun _ => 0) =
    some (root, built) ∧ sampleLayout.Fits 0x48200000 ∧
      ¬ Boots sampleLayout 0x40200440 0x48200000 (opalMmuEnable root built) := by
  have fits : sampleLayout.Fits 0x48200000 := ⟨by decide, by decide, by decide⟩
  have loaded := tables_loaded sampleLayout 0x48200000 fits.loads
  have room : loadedAt 0x48200000 sampleLayout.tables + 14 * 2 ^ 14 < 2 ^ 64 := Nat.lt_of_le_of_lt loaded.2.1 (by decide)
  refine ⟨_, _, build_tree sampleLayout _ 0x100000 (fun _ => 0) (by decide) _ loaded.1 room, fits, fun boots => ?_⟩
  obtain ⟨rights, found, executes⟩ := boots.code 0x48200000 (le_refl _) (by decide)
  have plain := displaced_entry sampleLayout 0x48200000 (fun _ => 0) (fun _ _ _ => rfl) fits (by decide) rights found
  rw [plain] at executes
  cases executes

end Mmu

end Opal
