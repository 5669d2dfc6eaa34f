import Opal.FreshImage

set_option autoImplicit false

namespace Opal

namespace Mmu

def Layout.Pooled (layout : Layout) (pa : Nat) : Prop := ∃ k, k < 8 ∧ pa = layout.runtime k

-- A page that is not in RAM.
def OffRam (pa : Nat) : Prop := pa % 2 ^ 14 = 0 ∧ (pa < ramBase ∨ ramBase + ramSize ≤ pa)

-- If ensure_table follows this descriptor it gets to a good table.
def Links (desc : Nat) (good : Nat → Prop) : Prop := desc &&& 0b11 = 0b11 → good (desc &&& 0x0000FFFFFFFFC000)

-- What may stand in the i-th entry of the k-th table of TABLES while every va
-- is phys_to_virt(pa), however often the pool is handed out. A page leaf in a
-- table of the pool may be followed like a table descriptor, but it leads out
-- of RAM.
def Layout.May (layout : Layout) (k i desc : Nat) : Prop :=
  match k with
  | 0 => if i = 0 then desc = tableDesc (layout.table 1) else desc = 0
  | 1 => if i = 0 then desc = tableDesc (layout.table 2) else Links desc layout.Pooled
  | 2 =>
      if i = 32 then desc = tableDesc (layout.table 3)
      else if 32 < i ∧ i < 48 then desc &&& 0b11 = 0b01
      else Links desc fun pa => pa = layout.table 4 ∨ layout.Pooled pa
  | 3 | 4 => True
  | 5 => desc = 0
  | _ => Links desc fun pa => layout.Pooled pa ∨ OffRam pa

-- The kernel's tables, and the tables of the user spaces made so far.
structure Contained (layout : Layout) (made : List Nat) (s : State) : Prop where
  root : s.ttbr1 = layout.table 0
  words : ∀ k i, k < 14 → i < 2048 → layout.May k i (readTable s.mem (layout.table k) i)
  furnished : Furnished layout made s.mem

theorem read_write (mem : Memory) (t i desc u j : Nat) (t_aligned : t % 2 ^ 14 = 0) (u_aligned : u % 2 ^ 14 = 0)
    (i_small : i < 2048) (j_small : j < 2048) :
    readTable (writeTable mem t i desc) u j = if t = u ∧ i = j then desc else readTable mem u j := by
  unfold readTable writeTable store
  by_cases same : t = u ∧ i = j
  · rw [if_pos same, same.1, same.2, Function.update_self]
  · rw [if_neg same, Function.update_of_ne]
    omega

section
variable (layout : Layout)

theorem may_pool (k i desc : Nat) :
    layout.May (6 + k) i desc = Links desc fun pa => layout.Pooled pa ∨ OffRam pa := by
  rw [Nat.add_comm]
  rfl

theorem table_in_ram (k : Nat) (within : k < 14) : ¬ OffRam (layout.table k) := by
  have placed := layout.placed
  obtain ⟨above, below_⟩ := And.intro placed.tables_above placed.tables_below
  obtain ⟨top, bottom⟩ := And.intro placed.stack_top placed.stack_bottom
  have fits := placed.fits
  have text := layout.text_above
  have rodata := layout.rodata_above
  unfold OffRam Layout.table tableAt ramBase ramSize
  omega

theorem frame_in_ram (j f : Nat) (f_small : f < 6) : ¬ OffRam (layout.frame j f) := by
  have placed := layout.placed
  obtain ⟨fits, top, bottom⟩ := And.intro placed.fits (And.intro placed.stack_top placed.stack_bottom)
  have text := layout.text_above
  have rodata := layout.rodata_above
  have bss := layout.in_bss
  have size : granule = 2 ^ 14 := rfl
  simp only [List.forall_mem_cons, size] at bss
  obtain ⟨-, tables, code, stack, a, b, -⟩ := bss
  unfold OffRam Layout.frame ramBase ramSize
  split_ifs <;> omega

variable {layout} {made : List Nat} {s : State} (contained : Contained layout made s)
include contained

theorem Contained.agree (s' : State) (root : s'.ttbr1 = s.ttbr1) (mem : s'.mem = s.mem) : Contained layout made s' where
  root := root.trans contained.root
  words := mem ▸ contained.words
  furnished := mem ▸ contained.furnished

theorem Contained.cursor (idx : Nat) : Contained layout made { s with runtimeIdx := idx } :=
  contained.agree _ rfl rfl

theorem Contained.write (k i desc : Nat) (within : k < 14) (small : i < 2048) (may : layout.May k i desc) :
    Contained layout made { s with mem := writeTable s.mem (layout.table k) i desc } where
  root := contained.root
  words := fun k' j k'_small j_small => by
    rw [read_write _ _ _ _ _ _ (table_aligned layout k) (table_aligned layout k') small j_small]
    split_ifs with here
    · rw [← table_injective k k' here.1, ← here.2]
      exact may
    · exact contained.words k' j k'_small j_small
  furnished := fun j f n j_small f_small n_small => by
    have away := (frame_outside layout j f (by omega)).2
    rw [← contained.furnished j f n j_small f_small n_small]
    refine Function.update_of_ne ?_ _ _
    unfold Layout.table tableAt at away ⊢
    omega

theorem Contained.write_off (t i desc : Nat) (small : i < 2048) (off : OffRam t) :
    Contained layout made { s with mem := writeTable s.mem t i desc } where
  root := contained.root
  words := fun k j within j_small => by
    rw [read_write _ _ _ _ _ _ off.1 (table_aligned layout k) small j_small, if_neg]
    · exact contained.words k j within j_small
    · exact fun here => table_in_ram layout k within (here.1 ▸ off)
  furnished := fun j f n j_small f_small n_small => by
    have inside := frame_in_ram layout j f (by omega)
    have aligned := frame_aligned layout j f
    rw [← contained.furnished j f n j_small f_small n_small]
    refine Function.update_of_ne (fun here => inside ?_) _ _
    have same : layout.frame j f = t := by
      have page := off.1
      omega
    rw [same]
    exact off

omit contained in
theorem links_table (k : Nat) (within : k < 14) (good : Nat → Prop) (leads : good (layout.table k)) :
    Links (tableDesc (layout.table k)) good := fun _ => by
  rwa [table_desc_field _ (table_small layout k within) (table_aligned layout k)]

theorem link_contained (k i : Nat) (within : k < 14) (small : i < 2048) (good : Nat → Prop)
    (may : ∀ desc, Links desc good → layout.May k i desc) (pool : ∀ pa, layout.Pooled pa → good pa) :
    Contained layout made (s.linkTable layout (layout.table k) i).2 ∧
      ∀ next, (s.linkTable layout (layout.table k) i).1 = .ok next → good next := by
  unfold State.linkTable State.allocRuntimeTable
  by_cases used : s.runtimeIdx ≥ 8
  · rw [if_pos used]
    exact ⟨contained.cursor _, fun next no => (by cases no)⟩
  · rw [if_neg used]
    have pooled : layout.Pooled (layout.runtime s.runtimeIdx) := ⟨_, by omega, rfl⟩
    refine ⟨(contained.cursor _).write k i _ within small (may _ ?_), fun next same => ?_⟩
    · exact links_table (6 + s.runtimeIdx) (by omega) good (pool _ pooled)
    · cases same
      exact pool _ pooled

theorem ensure_contained (k i : Nat) (within : k < 14) (small : i < 2048) (good : Nat → Prop)
    (may : ∀ desc, Links desc good → layout.May k i desc) (links : Links (readTable s.mem (layout.table k) i) good)
    (pool : ∀ pa, layout.Pooled pa → good pa) :
    Contained layout made (s.ensureTable layout (layout.table k) i).2 ∧
      ∀ next, (s.ensureTable layout (layout.table k) i).1 = .ok next → good next := by
  have linked := link_contained contained k i within small good may pool
  unfold State.ensureTable
  generalize readTable s.mem (layout.table k) i = desc at links
  dsimp only
  have bound := kind_lt desc
  unfold Links at links
  generalize desc &&& 0b11 = kind at bound links ⊢
  interval_cases kind
  · exact linked
  · exact ⟨contained, fun next no => (by cases no)⟩
  · exact linked
  · refine ⟨contained, fun next same => ?_⟩
    cases same
    exact links rfl

omit contained in
theorem ensure_follows (k j i : Nat) (within : j < 14)
    (stands : readTable s.mem (layout.table k) i = tableDesc (layout.table j)) :
    s.ensureTable layout (layout.table k) i = (.ok (layout.table j), s) := by
  unfold State.ensureTable
  rw [stands]
  dsimp only
  rw [table_desc_kind _ (table_aligned layout j), table_desc_field _ (table_small layout j within) (table_aligned layout j)]
  rfl

omit contained in
theorem ensure_blocked (t i : Nat) (stands : readTable s.mem t i &&& 0b11 = 0b01) :
    s.ensureTable layout t i = (.error .blockInPath, s) := by
  unfold State.ensureTable
  dsimp only
  rw [stands]
  rfl

-- Where a leaf may be written: its own kernel table, or a table that holds
-- nothing but leaves and links, or no table.
def Layout.Leafy (layout : Layout) (pa l3Pa : Nat) : Prop :=
  l3Pa = layout.table 3 ∨ l3Pa = layout.table 4 ∨ (layout.Pooled l3Pa ∧ OffRam pa) ∨ OffRam l3Pa

theorem leaf_contained (attr : Attr) (pa l3Pa i : Nat) (small : i < 2048) (pa_small : pa < 2 ^ 48) (aligned : pa % 2 ^ 14 = 0)
    (leafy : layout.Leafy pa l3Pa) : Contained layout made { s with mem := writeTable s.mem l3Pa i (pageDesc pa attr) } := by
  rcases leafy with rfl | rfl | ⟨⟨k, within, rfl⟩, off⟩ | off
  · exact contained.write 3 i _ (by omega) small trivial
  · exact contained.write 4 i _ (by omega) small trivial
  · refine contained.write (6 + k) i _ (by omega) small ?_
    rw [may_pool]
    intro _
    rw [page_desc_field pa attr pa_small aligned]
    exact .inr off
  · exact contained.write_off l3Pa i _ small off

omit contained in
theorem linear_va (pa : Nat) (addressable : pa < 2 ^ 64) (high : physToVirt pa >>> 48 = 0xFFFF) :
    pa < 2 ^ 48 ∧ vaL0i (physToVirt pa) = pa / 2 ^ 47 % 2 ∧ vaL1i (physToVirt pa) = pa / 2 ^ 36 % 2048 ∧
      vaL2i (physToVirt pa) = pa / 2 ^ 25 % 2048 := by
  rw [Nat.shiftRight_eq_div_pow] at high
  have small : pa < 2 ^ 48 := by
    unfold physToVirt kernelBase at high
    omega
  have va : physToVirt pa = kernelBase + pa := by
    unfold physToVirt kernelBase
    omega
  rw [va, vaL0i, vaL1i, vaL2i, index_top, index_eq, index_eq]
  unfold kernelBase
  omega

theorem lower_contained (attr : Attr) (pa l2Pa m i : Nat) (m_small : m < 2048) (i_small : i < 2048) (pa_small : pa < 2 ^ 48)
    (aligned : pa % 2 ^ 14 = 0) (slot : m = pa / 2 ^ 25 % 2048)
    (trunk : l2Pa = layout.table 2 ∧ pa < 2 ^ 36 ∨ layout.Pooled l2Pa ∧ 2 ^ 36 ≤ pa) :
    Contained layout made (match s.ensureTable layout l2Pa m with
      | (.error e, s) => ((.error e : Except IoremapError Unit), s)
      | (.ok l3Pa, s) => (.ok (), { s with mem := writeTable s.mem l3Pa i (pageDesc pa attr) })).2 := by
  have leaf : ∀ good : Nat → Prop, (∀ l3Pa, good l3Pa → layout.Leafy pa l3Pa) →
      Contained layout made (s.ensureTable layout l2Pa m).2 ∧ (∀ next, (s.ensureTable layout l2Pa m).1 = .ok next → good next) →
      Contained layout made (match s.ensureTable layout l2Pa m with
        | (.error e, s) => ((.error e : Except IoremapError Unit), s)
        | (.ok l3Pa, s) => (.ok (), { s with mem := writeTable s.mem l3Pa i (pageDesc pa attr) })).2 := by
    intro good leafy ensured
    generalize s.ensureTable layout l2Pa m = result at ensured
    obtain ⟨_ | l3Pa, after⟩ := result
    · exact ensured.1
    · exact leaf_contained ensured.1 attr pa l3Pa i i_small pa_small aligned (leafy l3Pa (ensured.2 l3Pa rfl))
  rcases trunk with ⟨rfl, low⟩ | ⟨⟨k, within, rfl⟩, high⟩
  · have words := contained.words 2 m (by omega) m_small
    unfold Layout.May at words
    by_cases kernel : m = 32
    · rw [if_pos kernel] at words
      rw [ensure_follows 2 3 m (by omega) words]
      exact leaf_contained contained attr pa _ i i_small pa_small aligned (.inl rfl)
    · rw [if_neg kernel] at words
      by_cases block : 32 < m ∧ m < 48
      · rw [if_pos block] at words
        rw [ensure_blocked _ m words]
        exact contained
      · rw [if_neg block] at words
        have off : OffRam pa := ⟨aligned, by unfold ramBase ramSize; omega⟩
        refine leaf _ (fun l3Pa good => ?_) (ensure_contained contained 2 m (by omega) m_small
          (fun pa => pa = layout.table 4 ∨ layout.Pooled pa) (fun desc links => ?_) words fun _ => .inr)
        · rcases good with mmio | pooled
          · exact .inr (.inl mmio)
          · exact .inr (.inr (.inl ⟨pooled, off⟩))
        · unfold Layout.May
          rw [if_neg kernel, if_neg block]
          exact links
  · have off : OffRam pa := ⟨aligned, by unfold ramBase ramSize; omega⟩
    have words := contained.words (6 + k) m (by omega) m_small
    rw [may_pool] at words
    refine leaf _ (fun l3Pa good => ?_) (ensure_contained contained (6 + k) m (by omega) m_small
      (fun pa => layout.Pooled pa ∨ OffRam pa) (fun desc links => ?_) words fun _ => .inl)
    · rcases good with pooled | away
      · exact .inr (.inr (.inl ⟨pooled, off⟩))
      · exact .inr (.inr (.inr away))
    · rw [may_pool]
      exact links

theorem ioremap_contained (attr : Attr) (pa : Nat) (addressable : pa < 2 ^ 64) :
    Contained layout made (s.ioremap layout attr (physToVirt pa) pa).2 := by
  have mask : ∀ x, x &&& (granule - 1) = x % 2 ^ 14 := fun x => Nat.and_two_pow_sub_one_eq_mod x 14
  unfold State.ioremap
  by_cases misaligned : physToVirt pa &&& (granule - 1) ≠ 0 ∨ pa &&& (granule - 1) ≠ 0
  · rw [if_pos misaligned]
    exact contained
  · rw [if_neg misaligned]
    rw [not_or, not_not, not_not, mask, mask] at misaligned
    by_cases low : physToVirt pa >>> 48 ≠ 0xFFFF
    · rw [if_pos low]
      exact contained
    · rw [if_neg low]
      rw [not_not] at low
      obtain ⟨small, l0, l1, l2⟩ := linear_va pa addressable low
      have l3_small : vaL3i (physToVirt pa) < 2048 := by
        rw [vaL3i, index_eq]
        omega
      rw [contained.root, l0, l1, l2]
      have top := contained.words 0 (pa / 2 ^ 47 % 2) (by omega) (by omega)
      unfold Layout.May at top
      dsimp only
      by_cases half : pa / 2 ^ 47 % 2 = 0
      · rw [if_pos half] at top
        rw [top, table_desc_kind _ (table_aligned layout 1), table_desc_field _ (table_small layout 1 (by omega))
          (table_aligned layout 1), if_neg (fun no => no rfl)]
        by_cases first : pa / 2 ^ 36 % 2048 = 0
        · have words := contained.words 1 0 (by omega) (by omega)
          rw [Layout.May, if_pos rfl] at words
          rw [first, ensure_follows 1 2 0 (by omega) words]
          exact lower_contained contained attr pa _ _ _ (by omega) l3_small small misaligned.2 rfl (.inl ⟨rfl, by omega⟩)
        · have words := contained.words 1 (pa / 2 ^ 36 % 2048) (by omega) (by omega)
          rw [Layout.May, if_neg first] at words
          have ensured := ensure_contained contained 1 (pa / 2 ^ 36 % 2048) (by omega) (by omega) layout.Pooled (fun desc links => by
            rw [Layout.May, if_neg first]
            exact links) words fun _ pooled => pooled
          generalize s.ensureTable layout (layout.table 1) (pa / 2 ^ 36 % 2048) = result at ensured
          obtain ⟨_ | l2Pa, after⟩ := result
          · exact ensured.1
          · exact lower_contained ensured.1 attr pa l2Pa _ _ (by omega) l3_small small misaligned.2 rfl
              (.inr ⟨ensured.2 l2Pa rfl, by omega⟩)
      · rw [if_neg half] at top
        rw [top, if_pos (by decide)]
        exact contained

theorem Contained.elsewhere (mem : Memory) (made' : List Nat) (furnished : Furnished layout made' mem)
    (same : ∀ a, layout.table 0 ≤ a → a < layout.table 14 → mem a = s.mem a) : Contained layout made' { s with mem := mem } where
  root := contained.root
  words := fun k i within small => by
    change layout.May k i (mem (layout.table k + i * 8))
    rw [same _ (by unfold Layout.table tableAt; omega) (by unfold Layout.table tableAt; omega)]
    exact contained.words k i within small
  furnished := furnished

theorem build_contained (k : Nat) (k_small : k < 3) (prog : Image) :
    Contained layout (k :: made) { s with mem := ((layout.space k).build s.mem prog).2 } :=
  contained.elsewhere _ _ (build_space layout made s.mem contained.furnished k k_small prog)
    (build_elsewhere layout s.mem k prog)

-- What a task can reach through its own tables is off the kernel's.
theorem store_contained (j : Nat) (j_small : j < 3) (va : Nat) (low : va < 2 ^ 48) (byte : UInt8) :
    Contained layout made { s with mem := userStore s.mem (layout.frame j 0) va byte } := by
  refine contained.elsewhere _ _ (store_furnished layout made s.mem contained.furnished j j_small va low byte) fun a above below_ => ?_
  by_cases built : j ∈ made
  · rw [userStore, user_translate layout made s.mem contained.furnished j j_small built va low, UserSpace.maps]
    split_ifs with inCode inStack
    · rfl
    · change storeByte s.mem (layout.frame j 5 + (va - userStack)) byte a = s.mem a
      have size : granule = 2 ^ 14 := rfl
      have away := (frame_outside layout j 5 (by omega)).2
      have aligned := frame_aligned layout j 5
      have tables := table_aligned layout 14
      unfold storeByte store
      refine Function.update_of_ne ?_ _ _
      omega
    · rfl
  · rw [userStore, nothing_translates layout made s.mem contained.furnished j j_small built va]

end

theorem links_invalid (desc : Nat) (good : Nat → Prop) (other : desc &&& 0b11 ≠ 0b11) : Links desc good :=
  fun kind => absurd kind other

theorem boot_may (layout : Layout) (k i : Nat) : layout.May k i (bootWord layout k i) := by
  have zero : ∀ good, Links 0 good := fun good => links_invalid 0 good (by decide)
  by_cases spare : 5 ≤ k
  · rw [bootWord, tree_word_spare _ _ k i spare]
    rcases Nat.eq_or_lt_of_le spare with rfl | past
    · rfl
    · obtain ⟨j, rfl⟩ := Nat.exists_eq_add_of_le (Nat.succ_le_of_lt past)
      exact (may_pool layout j i 0).mpr (zero _)
  · interval_cases k
    · rw [Layout.May, bootWord, treeWord]
      split_ifs <;> rfl
    · rw [Layout.May, bootWord, treeWord]
      split_ifs
      · rfl
      · exact zero _
    · rw [Layout.May, bootWord, treeWord]
      by_cases kernel : i = 32
      · rw [if_pos kernel, if_neg (by omega), if_pos kernel]
      · rw [if_neg kernel, if_neg kernel]
        by_cases block : 32 < i ∧ i < 48
        · rw [if_pos block, if_neg (by omega), if_pos (by omega)]
          exact block_desc_kind _ _ (by omega)
        · rw [if_neg block]
          split_ifs
          · exact links_table 4 (by omega) _ (.inl rfl)
          · omega
          · exact links_invalid _ _ (by rw [block_desc_kind _ _ (by decide)]; decide)
          · exact zero _
    · trivial
    · trivial

theorem boot_contained (layout : Layout) (mem : Memory) (zeroed : Zeroed layout mem) (user : UserZeroed layout mem) :
    Contained layout [] ((opalMmuEnable (layout.table 0) (bootMemory layout mem)).condemnLowHalf layout) where
  root := rfl
  words := fun k i within small => by
    change layout.May k i (bootMemory layout mem (layout.table k + i * 8))
    rw [boot_memory_word layout mem zeroed k i within small]
    exact boot_may layout k i
  furnished := (boot_guarded layout mem zeroed user).furnished

end Mmu

end Opal
