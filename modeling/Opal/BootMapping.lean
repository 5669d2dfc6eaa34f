import Opal.LiveTables

set_option autoImplicit false

namespace Opal

namespace Mmu

-- The boot tables after a few mapping calls, with the low half condemned. used
-- bounds the tables taken from the pool, and the blocks are the boot tree's.
structure Ready (layout : Layout) (s : State) (used : Nat) : Prop where
  paged : ∃ place, Paged layout s place
  condemned : s.ttbr0 = layout.emptyRoot
  blocks : ∀ i, i < 2048 → ¬ (33 ≤ i ∧ i ≤ 48) → s.mem (layout.table 2 + i * 8) &&& 0b11 ≠ 0b01
  upper : readTable s.mem (layout.table 0) 1 = 0
  used : s.runtimeIdx ≤ used

section
variable (layout : Layout) (s : State)

theorem link_uses (tablePa idx : Nat) : (s.linkTable layout tablePa idx).2.runtimeIdx ≤ s.runtimeIdx + 1 := by
  unfold State.linkTable State.allocRuntimeTable
  by_cases used : s.runtimeIdx ≥ 8
  · rw [if_pos used]
    exact Nat.mod_le _ _
  · rw [if_neg used]
    exact Nat.mod_le _ _

theorem ensure_uses (tablePa idx : Nat) : (s.ensureTable layout tablePa idx).2.runtimeIdx ≤ s.runtimeIdx + 1 := by
  have links := link_uses layout s tablePa idx
  have bound := kind_lt (readTable s.mem tablePa idx)
  unfold State.ensureTable
  dsimp only
  generalize readTable s.mem tablePa idx &&& 0b11 = k at bound ⊢
  interval_cases k
  · exact links
  · exact Nat.le_succ _
  · exact links
  · exact Nat.le_succ _

theorem ensure_succeeds (tablePa idx : Nat) (open_ : readTable s.mem tablePa idx &&& 0b11 ≠ 0b01) (room : s.runtimeIdx < 8) :
    ∃ u s', s.ensureTable layout tablePa idx = (.ok u, s') := by
  have bound := kind_lt (readTable s.mem tablePa idx)
  unfold State.ensureTable State.linkTable State.allocRuntimeTable
  rw [if_neg (by omega)]
  dsimp only
  generalize readTable s.mem tablePa idx &&& 0b11 = k at bound open_ ⊢
  interval_cases k
  · exact ⟨_, _, rfl⟩
  · exact absurd rfl open_
  · exact ⟨_, _, rfl⟩
  · exact ⟨_, _, rfl⟩

theorem ioremap_uses (attr : Attr) (va pa : Nat) : (s.ioremap layout attr va pa).2.runtimeIdx ≤ s.runtimeIdx + 2 := by
  unfold State.ioremap
  split_ifs
  · exact Nat.le_add_right _ 2
  · exact Nat.le_add_right _ 2
  · dsimp only
    split_ifs
    · exact Nat.le_add_right _ 2
    · generalize readTable s.mem s.ttbr1 (vaL0i va) &&& 0x0000FFFFFFFFC000 = l1
      have first := ensure_uses layout s l1 (vaL1i va)
      rcases ensured1 : s.ensureTable layout l1 (vaL1i va) with ⟨e | l2, s1⟩
      · rw [ensured1] at first
        exact Nat.le_succ_of_le first
      · have second := ensure_uses layout s1 l2 (vaL2i va)
        rw [ensured1] at first
        dsimp only at first ⊢
        rcases ensured2 : s1.ensureTable layout l2 (vaL2i va) with ⟨e | l3, s2⟩
        · rw [ensured2] at second
          exact Nat.le_trans second (Nat.succ_le_succ first)
        · rw [ensured2] at second
          exact Nat.le_trans second (Nat.succ_le_succ first)

end

section
variable {layout : Layout} {s : State} {used : Nat}

theorem Ready.unwrapped (ready : Ready layout s used) (few : used ≤ 6) (va pa : Nat) : ¬ s.Wraps va pa := by
  rintro ⟨last, _⟩
  have bounded := ready.used
  omega

theorem Ready.next (ready : Ready layout s used) (few : used ≤ 6) (call : IoremapCall) :
    Ready layout (call.next layout s) (used + 2) := by
  obtain ⟨place, paged⟩ := ready.paged
  have fits := ready.unwrapped few call.va call.pa
  have called := paged.call call fits
  have ran : call.next layout s = (s.ioremap layout call.attr call.va call.pa).2 := by rw [IoremapCall.next, call.run_eq]
  have remaps := ioremap_step paged.wired call.attr call.va call.pa fits
  rw [← ran] at remaps
  have uses := ioremap_uses layout s call.attr call.va call.pa
  rw [← ran] at uses
  refine ⟨called.paged, remaps.ttbr0.trans ready.condemned, fun i inside other => ?_, ?_, ?_⟩
  · exact adds_pages called.adds _ (ready.blocks i inside other)
  · exact (called.root 1 (by decide)).trans ready.upper
  · exact Nat.le_trans uses (Nat.add_le_add_right ready.used 2)

-- Where va leads.
def State.leads (layout : Layout) (s : State) (va : Nat) : Option Nat := (s.walk layout va).translation.map Prod.fst

theorem Ready.maps (ready : Ready layout s used) (few : used ≤ 6) (call : IoremapCall) (small : call.pa < 2 ^ 48)
    (linear : call.va = physToVirt call.pa) (done : (call.run layout s).1 = .ok ()) :
    (call.next layout s).leads layout call.va = some call.pa := by
  obtain ⟨place, paged⟩ := ready.paged
  have exact_ := paged.wired.exact_call ready.condemned call (ready.unwrapped few _ _) small linear
  dsimp only at exact_
  rw [done] at exact_
  have here := exact_.1 0 (by decide)
  rw [Nat.add_zero, Nat.add_zero] at here
  rw [State.leads]
  exact congrArg (Option.map Prod.fst) here

theorem Ready.keeps (ready : Ready layout s used) (few : used ≤ 6) (call : IoremapCall) (small : call.pa < 2 ^ 48)
    (linear : call.va = physToVirt call.pa) (pa : Nat) (pa_small : pa < 2 ^ 48)
    (before : s.leads layout (physToVirt pa) = some pa) : (call.next layout s).leads layout (physToVirt pa) = some pa := by
  obtain ⟨place, paged⟩ := ready.paged
  have exact_ := paged.wired.exact_call ready.condemned call (ready.unwrapped few _ _) small linear
  have based : ∀ p, p < 2 ^ 48 → physToVirt p = kernelBase + p := fun p below => by
    unfold physToVirt kernelBase
    omega
  dsimp only at exact_
  cases result : (call.run layout s).1 with
  | error e =>
      rw [result] at exact_
      exact (congrArg (Option.map Prod.fst) (exact_ (physToVirt pa))).trans before
  | ok done =>
      rw [result] at exact_
      obtain ⟨page, others⟩ := exact_
      by_cases within : ∃ off, off < 2 ^ 14 ∧ physToVirt pa = call.va + off
      · obtain ⟨off, inside, at_⟩ := within
        have here := page off inside
        have same : call.pa + off = pa := by
          rw [linear, based pa pa_small, based call.pa small] at at_
          omega
        rw [State.leads, at_]
        refine (congrArg (Option.map Prod.fst) here).trans ?_
        rw [Option.map_some, same]
      · have apart : ∀ off, off < 2 ^ 14 → physToVirt pa ≠ call.va + off := fun off inside at_ => within ⟨off, inside, at_⟩
        exact (congrArg (Option.map Prod.fst) (others (physToVirt pa) apart)).trans before

theorem alias_va (pa : Nat) (small : pa < 2 ^ 48) : physToVirt pa = kernelBase + pa ∧ physToVirt pa >>> 48 = 0xFFFF := by
  have based : physToVirt pa = kernelBase + pa := by
    unfold physToVirt kernelBase
    omega
  refine ⟨based, ?_⟩
  rw [based, Nat.shiftRight_eq_div_pow]
  unfold kernelBase
  omega

theorem Ready.refuses (ready : Ready layout s used) (attr : Attr) (pa : Nat) (upper : 2 ^ 47 ≤ pa) (small : pa < 2 ^ 48) :
    ∃ e, s.ioremap layout attr (physToVirt pa) pa = (.error e, s) := by
  obtain ⟨place, paged⟩ := ready.paged
  obtain ⟨based, high⟩ := alias_va pa small
  have slot : vaL0i (physToVirt pa) = 1 := by
    rw [vaL0i, index_top, based]
    unfold kernelBase
    omega
  have empty : readTable s.mem s.ttbr1 1 &&& 0b11 ≠ 0b11 := by
    rw [paged.wired.root, ready.upper]
    decide
  unfold State.ioremap
  split_ifs with misaligned low
  · exact ⟨_, rfl⟩
  · exact absurd high low
  · dsimp only
    rw [slot, if_pos empty]
    exact ⟨_, rfl⟩

theorem Ready.accepts (ready : Ready layout s used) (few : used ≤ 6) (attr : Attr) (hi : Nat) (lower : hi < 2 ^ 15) :
    ∃ s', s.ioremap layout attr (physToVirt (hi * 2 ^ 32)) (hi * 2 ^ 32) = (.ok (), s') := by
  obtain ⟨place, paged⟩ := ready.paged
  have wired := paged.wired
  have bounded := ready.used
  obtain ⟨based, high⟩ := alias_va (hi * 2 ^ 32) (by omega)
  have va_at : physToVirt (hi * 2 ^ 32) = 0xFFFF * 2 ^ 48 + hi * 2 ^ 32 := based
  have mask : ∀ x, x &&& (granule - 1) = x % 2 ^ 14 := fun x => Nat.and_two_pow_sub_one_eq_mod x 14
  have accepted : ¬ (physToVirt (hi * 2 ^ 32) &&& (granule - 1) ≠ 0 ∨ hi * 2 ^ 32 &&& (granule - 1) ≠ 0) := by
    rw [mask, mask, va_at]
    omega
  have i0 : vaL0i (physToVirt (hi * 2 ^ 32)) = 0 := by
    rw [vaL0i, index_top, va_at]
    omega
  have i1 : vaL1i (physToVirt (hi * 2 ^ 32)) = hi / 16 := by
    rw [vaL1i, index_eq, va_at]
    omega
  have i2 : vaL2i (physToVirt (hi * 2 ^ 32)) = hi % 16 * 128 := by
    rw [vaL2i, index_eq, va_at]
    omega
  -- The trunk leads to the level 1 table, where no entry is a block.
  obtain ⟨l1, at_l1, to_l2⟩ := wired.rooted.linked _ [0] 0 paged.trunk
  obtain ⟨root, at_root, to_l1⟩ := wired.rooted.linked l1 [] 0 at_l1
  obtain rfl := (wired.rooted.root root).mp at_root
  have trunk := table_kind s.mem 0 (layout.table 0) 0 l1 (by decide) to_l1
  have l1_at : readTable s.mem (layout.table 0) 0 &&& 0x0000FFFFFFFFC000 = l1 := by
    rw [List.length_nil, entry, if_pos (by decide)] at to_l1
    exact TableEntry.table.inj ((decode_descend 0 _ (by decide) trunk).symm.trans to_l1)
  have open1 : readTable s.mem l1 (hi / 16) &&& 0b11 ≠ 0b01 := by
    obtain ⟨k, within, rfl, _⟩ := wired.hung l1 _ at_l1
    refine paged.pages k _ within ?_ (by omega)
    rintro rfl
    rw [paged.trunk] at at_l1
    cases at_l1
  obtain ⟨l2, s1, ensured1⟩ := ensure_succeeds layout s l1 (hi / 16) open1 (by omega)
  obtain ⟨place1, grows1, found1⟩ := ensure_step wired l1 (hi / 16) _ at_l1 (by simp) (by omega) (fun _ => by omega)
  have performs1 := ensure_performs layout s l1 (hi / 16)
  have uses1 := ensure_uses layout s l1 (hi / 16)
  rw [ensured1] at grows1 found1 performs1 uses1
  have at_l2 := (found1 l2 rfl).1
  have paged1 := paged.adds grows1.wired grows1.keeps performs1.adds
  have open2 : readTable s1.mem l2 (hi % 16 * 128) &&& 0b11 ≠ 0b01 := by
    obtain ⟨k, within, rfl, _⟩ := grows1.wired.hung l2 _ at_l2
    by_cases boot : k = 2
    · subst boot
      exact adds_pages performs1.adds _ (ready.blocks _ (by omega) (by omega))
    · exact paged1.pages k _ within boot (by omega)
  obtain ⟨l3, s2, ensured2⟩ := ensure_succeeds layout s1 l2 (hi % 16 * 128) open2 (by dsimp only at uses1; omega)
  rw [State.ioremap, if_neg accepted, if_neg (not_not.mpr high)]
  dsimp only
  rw [i0, i1, i2, wired.root, if_neg (not_not.mpr trunk), l1_at, ensured1]
  dsimp only
  rw [ensured2]
  exact ⟨_, rfl⟩

end

-- The tables as the boot code hands them on.
def booted (layout : Layout) (mem : Memory) : State :=
  (opalMmuEnable (layout.table 0) (bootMemory layout mem)).condemnLowHalf layout

theorem boot_ready (layout : Layout) (mem : Memory) (zeroed : Zeroed layout mem) : Ready layout (booted layout mem) 0 := by
  refine ⟨⟨_, boot_paged layout mem zeroed⟩, rfl, fun i inside other => ?_, ?_, le_refl 0⟩
  · have word := boot_memory_word layout mem zeroed 2 i (by decide) inside
    have table : ∀ j, tableDesc (layout.table j) &&& 0b11 ≠ 0b01 := fun j => by
      rw [table_desc_kind _ (table_aligned layout j)]
      decide
    have built : (booted layout mem).mem = bootMemory layout mem := rfl
    rw [built, word, bootWord, treeWord]
    split_ifs
    · exact table 4
    · exact table 3
    · omega
    · omega
    · decide
  · exact boot_memory_word layout mem zeroed 0 1 (by decide) (by decide)

end Mmu

end Opal
