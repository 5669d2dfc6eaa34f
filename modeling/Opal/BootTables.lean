import Opal.Translation
import Mathlib.Data.List.Range

set_option autoImplicit false

namespace Opal

namespace Mmu

theorem write_loop_miss (start upto : Nat) (word : Nat → Option (Nat × Nat)) (mem : Memory) (a : Nat)
    (miss : ∀ i pa desc, start ≤ i → i < upto → word i = some (pa, desc) → a ≠ pa) :
    writeLoop start upto word mem a = mem a := by
  have each : ∀ i ∈ List.range' start (upto - start), ∀ pa desc, word i = some (pa, desc) → a ≠ pa := by
    intro i member pa desc
    obtain ⟨low, high⟩ := List.mem_range'_1.mp member
    exact miss i pa desc low (by omega)
  unfold writeLoop
  generalize List.range' start (upto - start) = rounds at each
  induction rounds generalizing mem with
  | nil => rfl
  | cons i rest ih =>
      rw [List.foldl_cons, ih _ fun j member => each j (List.mem_cons_of_mem i member)]
      cases found : word i with
      | none => rfl
      | some pair => exact Function.update_of_ne (each i List.mem_cons_self pair.1 pair.2 found) ..

theorem write_loop_hit (start upto : Nat) (word : Nat → Option (Nat × Nat)) (mem : Memory) (a i desc : Nat)
    (low : start ≤ i) (high : i < upto) (here : word i = some (a, desc))
    (agree : ∀ j d, start ≤ j → j < upto → word j = some (a, d) → d = desc) :
    writeLoop start upto word mem a = desc := by
  have member : i ∈ List.range' start (upto - start) := List.mem_range'_1.mpr ⟨low, by omega⟩
  have each : ∀ j ∈ List.range' start (upto - start), ∀ d, word j = some (a, d) → d = desc := by
    intro j member d
    obtain ⟨above, below⟩ := List.mem_range'_1.mp member
    exact agree j d above (by omega)
  unfold writeLoop
  generalize List.range' start (upto - start) = rounds at member each
  induction rounds using List.reverseRecOn with
  | nil => cases member
  | append_singleton rest j ih =>
      rw [List.foldl_append, List.foldl_cons, List.foldl_nil]
      have earlier := fun k inside => each k (List.mem_append_left [j] inside)
      by_cases last : ∃ d, word j = some (a, d)
      · obtain ⟨d, found⟩ := last
        rw [found, ← each j (List.mem_append_right rest List.mem_cons_self) d found]
        exact Function.update_self ..
      · have before : i ∈ rest := by
          refine (List.mem_append.mp member).resolve_right fun tail => last ?_
          rw [← List.mem_singleton.mp tail]
          exact ⟨desc, here⟩
        cases found : word j with
        | none => exact ih before earlier
        | some pair =>
            have apart : a ≠ pair.1 := fun same => last ⟨pair.2, by rw [found, same]⟩
            exact (Function.update_of_ne apart ..).trans (ih before earlier)

-- The tables of TABLES by their position, wherever TABLES lies.
def tableAt (base k : Nat) : Nat := base + k * 2 ^ 14

-- What the builder leaves in the tables: the words of the five it fills, and
-- zeroes. page is what the kernel's L3 table holds.
def treeWord (base : Nat) (page : Nat → Option Nat) : Nat → Nat → Nat
  | 0, i => if i = 0 then tableDesc (tableAt base 1) else 0
  | 1, i => if i = 0 then tableDesc (tableAt base 2) else 0
  | 2, i =>
      if i = 4 then tableDesc (tableAt base 4)
      else if i = 32 then tableDesc (tableAt base 3)
      else if 33 ≤ i ∧ i < 48 then blockDesc (i * 2 ^ 25) .rw
      else if i = 48 then blockDesc 0x60000000 .device
      else 0
  | 3, i => (page i).getD 0
  | 4, i =>
      if i = 1024 then pageDesc 0x09000000 .device
      else if i < 8 then pageDesc (0x08000000 + i * 2 ^ 14) .device
      else 0
  | _, _ => 0

theorem tree_word_spare (base : Nat) (page : Nat → Option Nat) (k i : Nat) (spare : 5 ≤ k) : treeWord base page k i = 0 := by
  unfold treeWord
  split <;> omega

section
variable (base : Nat) (mem : Memory)

theorem store_slot (k k' i j desc : Nat) (i_small : i < 2048) (j_small : j < 2048) :
    store mem (tableAt base k + i * 8) desc (tableAt base k' + j * 8) =
      if k' = k ∧ j = i then desc else mem (tableAt base k' + j * 8) := by
  rw [store, Function.update_apply]
  by_cases same : k' = k ∧ j = i
  · rw [if_pos same, if_pos (by rw [same.1, same.2])]
  · rw [if_neg same, if_neg (by unfold tableAt; omega)]

-- A loop that fills the slots of one table from first up to last. g is what
-- belongs into each.
theorem loop_slot (k k' off start upto first last j : Nat) (word : Nat → Option (Nat × Nat)) (g : Nat → Option Nat)
    (begins : off + start = first) (ends : off + upto = last) (room : last ≤ 2048) (j_small : j < 2048)
    (words : ∀ i, start ≤ i → i < upto → word i = (g (off + i)).map fun d => (tableAt base k + (off + i) * 8, d)) :
    writeLoop start upto word mem (tableAt base k' + j * 8) =
      if k' = k ∧ first ≤ j ∧ j < last then (g j).getD (mem (tableAt base k' + j * 8))
      else mem (tableAt base k' + j * 8) := by
  have only : ∀ i d, start ≤ i → i < upto → word i = some (tableAt base k' + j * 8, d) →
      k' = k ∧ j = off + i ∧ g j = some d := by
    intro i d low high found
    rw [words i low high] at found
    obtain ⟨d', value, pair⟩ := Option.map_eq_some_iff.mp found
    obtain ⟨place, rfl⟩ := Prod.mk.inj pair
    unfold tableAt at place
    have slot : j = off + i := by omega
    exact ⟨by omega, slot, slot ▸ value⟩
  have miss : (∀ i d, start ≤ i → i < upto → ¬ (k' = k ∧ j = off + i ∧ g j = some d)) →
      writeLoop start upto word mem (tableAt base k' + j * 8) = mem (tableAt base k' + j * 8) := fun none =>
    write_loop_miss start upto word mem _ fun i pa d low high found same =>
      none i d low high (only i d low high (same ▸ found))
  by_cases within : k' = k ∧ first ≤ j ∧ j < last
  · rw [if_pos within]
    obtain ⟨rfl, low, high⟩ := within
    cases value : g j with
    | none =>
        refine miss fun i d _ _ hit => ?_
        rw [hit.2.2] at value
        cases value
    | some d =>
        refine write_loop_hit start upto word mem _ (j - off) d (by omega) (by omega) ?_ ?_
        · rw [words _ (by omega) (by omega), show off + (j - off) = j by omega, value]
          rfl
        · intro i d' start_le below found
          have hit := only i d' start_le below found
          rw [hit.2.2] at value
          exact Option.some.inj value
  · rw [if_neg within]
    exact miss fun i d low high hit => within ⟨hit.1, by omega, by omega⟩

end

-- The builder's writes, in order, with the indices worked out.
def treeMemory (base : Nat) (page : Nat → Option Nat) (mem : Memory) : Memory :=
  let device := fun start i => some (tableAt base 4 + l3i (start + i * granule) * 8, pageDesc (start + i * granule) .device)
  let mem := writeLoop 0 2048 (fun i => (page i).map fun d => (tableAt base 3 + i * 8, d)) mem
  let mem := store mem (tableAt base 4 + 1024 * 8) (pageDesc 0x09000000 .device)
  let mem := writeLoop 0 4 (device gicdBase) mem
  let mem := writeLoop 0 4 (device giccBase) mem
  let mem := store mem (tableAt base 2 + 4 * 8) (tableDesc (tableAt base 4))
  let mem := store mem (tableAt base 2 + 32 * 8) (tableDesc (tableAt base 3))
  let mem := writeLoop 33 48 (fun slot => some (tableAt base 2 + slot * 8, blockDesc (slot <<< 25) .rw)) mem
  let mem := store mem (tableAt base 2 + 48 * 8) (blockDesc 0x60000000 .device)
  let mem := store mem (tableAt base 1 + 0 * 8) (tableDesc (tableAt base 2))
  store mem (tableAt base 0 + 0 * 8) (tableDesc (tableAt base 1))

section
variable (base : Nat) (page : Nat → Option Nat) (mem : Memory)

theorem tree_memory_word (zeroed : ∀ a, tableAt base 0 ≤ a → a < tableAt base 14 → mem a = 0) (k i : Nat) (k_small : k < 14)
    (i_small : i < 2048) : treeMemory base page mem (tableAt base k + i * 8) = treeWord base page k i := by
  have zero : mem (tableAt base k + i * 8) = 0 :=
    zeroed _ (by unfold tableAt; omega) (by unfold tableAt; omega)
  have gicd : ∀ i, i < 4 → l3i (gicdBase + i * granule) = 0 + i := fun i small => by
    unfold l3i gicdBase granule
    rw [index_eq]
    omega
  have gicc : ∀ i, i < 4 → l3i (giccBase + i * granule) = 4 + i := fun i small => by
    unfold l3i giccBase granule
    rw [index_eq]
    omega
  have device : ∀ i off base, base = 0x08000000 + off * 2 ^ 14 → base + i * granule = 0x08000000 + (off + i) * 2 ^ 14 := by
    intro i off base begins
    unfold granule
    omega
  unfold treeMemory
  dsimp only
  rw [store_slot base _ 0 k 0 i _ (by omega) i_small, store_slot base _ 1 k 0 i _ (by omega) i_small,
    store_slot base _ 2 k 48 i _ (by omega) i_small,
    loop_slot base _ 2 k 0 33 48 33 48 i _ (fun slot => some (blockDesc (slot * 2 ^ 25) .rw)) rfl rfl (by omega) i_small
      (fun slot _ _ => by rw [Nat.zero_add, Nat.shiftLeft_eq]; rfl),
    store_slot base _ 2 k 32 i _ (by omega) i_small, store_slot base _ 2 k 4 i _ (by omega) i_small,
    loop_slot base _ 4 k 4 0 4 4 8 i _ (fun slot => some (pageDesc (0x08000000 + slot * 2 ^ 14) .device)) rfl rfl
      (by omega) i_small (fun i _ small => by rw [gicc i small, device i 4 giccBase rfl]; rfl),
    loop_slot base _ 4 k 0 0 4 0 4 i _ (fun slot => some (pageDesc (0x08000000 + slot * 2 ^ 14) .device)) rfl rfl
      (by omega) i_small (fun i _ small => by rw [gicd i small, device i 0 gicdBase rfl]; rfl),
    store_slot base _ 4 k 1024 i _ (by omega) i_small,
    loop_slot base _ 3 k 0 0 2048 0 2048 i _ page rfl rfl (by omega) i_small
      (fun i _ _ => by rw [Nat.zero_add]), zero, Option.getD_some, Option.getD_some,
    Option.getD_some]
  by_cases spare : 5 ≤ k
  · rw [tree_word_spare base page k i spare, if_neg (by omega), if_neg (by omega), if_neg (by omega), if_neg (by omega),
      if_neg (by omega), if_neg (by omega), if_neg (by omega), if_neg (by omega), if_neg (by omega), if_neg (by omega)]
  · interval_cases k
    all_goals
      simp only [treeWord, Nat.reduceEqDiff, OfNat.ofNat_ne_zero, OfNat.zero_ne_ofNat, OfNat.ofNat_ne_one,
        OfNat.one_ne_ofNat, one_ne_zero, zero_ne_one, false_and, true_and, if_false, Nat.zero_le]
    · split_ifs <;> omega
    · rw [if_pos i_small]
    · split_ifs <;> omega

theorem tree_memory_outside (a : Nat) (away : a < tableAt base 0 ∨ tableAt base 14 ≤ a) :
    treeMemory base page mem a = mem a := by
  have store_away : ∀ mem k i desc, k < 14 → i < 2048 → store mem (tableAt base k + i * 8) desc a = mem a := by
    intro mem k i desc k_small i_small
    unfold tableAt at away ⊢
    exact Function.update_of_ne (by omega) ..
  have loop_away : ∀ mem start upto word, (∀ i pa desc, start ≤ i → i < upto → word i = some (pa, desc) →
      ∃ k n, k < 14 ∧ n < 2048 ∧ pa = tableAt base k + n * 8) → writeLoop start upto word mem a = mem a := by
    intro mem start upto word places
    refine write_loop_miss start upto word mem a fun i pa desc low high found => ?_
    obtain ⟨k, n, k_small, n_small, rfl⟩ := places i pa desc low high found
    unfold tableAt at away ⊢
    omega
  have index : ∀ pa, l3i pa < 2048 := fun pa => Nat.lt_of_le_of_lt Nat.and_le_right (by decide)
  unfold treeMemory
  dsimp only
  rw [store_away _ 0 0 _ (by omega) (by omega), store_away _ 1 0 _ (by omega) (by omega),
    store_away _ 2 48 _ (by omega) (by omega), loop_away, store_away _ 2 32 _ (by omega) (by omega),
    store_away _ 2 4 _ (by omega) (by omega), loop_away, loop_away, store_away _ 4 1024 _ (by omega) (by omega), loop_away]
  · intro i pa desc _ high found
    obtain ⟨d, _, pair⟩ := Option.map_eq_some_iff.mp found
    exact ⟨3, i, by omega, high, (congrArg Prod.fst pair).symm⟩
  · intro i pa desc _ _ found
    exact ⟨4, _, by omega, index _, (congrArg Prod.fst (Option.some.inj found)).symm⟩
  · intro i pa desc _ _ found
    exact ⟨4, _, by omega, index _, (congrArg Prod.fst (Option.some.inj found)).symm⟩
  · intro i pa desc _ high found
    exact ⟨2, i, by omega, by omega, (congrArg Prod.fst (Option.some.inj found)).symm⟩

end

-- What the kernel's L3 table holds, wherever the image is loaded.
def loadedPage (layout : Layout) (delta i : Nat) : Option Nat := kernelPage layout delta (ramBase + i <<< 14)

theorem build_tree (layout : Layout) (delta mmfr0 : Nat) (mem : Memory) (present : mmfr0 >>> 20 &&& 0xF ≠ 0) (base : Nat)
    (loaded : (layout.tables + delta) % 2 ^ 64 = base) (room : base + 14 * 2 ^ 14 < 2 ^ 64) :
    opalBuildTables layout delta mmfr0 mem = some (tableAt base 0, treeMemory base (loadedPage layout delta) mem) := by
  have at0 : (layout.l0 + delta) % 2 ^ 64 = tableAt base 0 := by unfold Layout.l0 tableAt; omega
  have at1 : (layout.l1 + delta) % 2 ^ 64 = tableAt base 1 := by unfold Layout.l1 tableAt granule; omega
  have at2 : (layout.l2 + delta) % 2 ^ 64 = tableAt base 2 := by unfold Layout.l2 tableAt granule; omega
  have at3 : (layout.l3Kernel + delta) % 2 ^ 64 = tableAt base 3 := by unfold Layout.l3Kernel tableAt granule; omega
  have at4 : (layout.l3Mmio + delta) % 2 ^ 64 = tableAt base 4 := by unfold Layout.l3Mmio tableAt granule; omega
  have uart : l3i uart0Base = 1024 ∧ l2i uart0Base = 4 ∧ uart0Base = 0x09000000 := ⟨rfl, rfl, rfl⟩
  have ram : l2i ramBase = 32 ∧ l1i ramBase = 0 ∧ l0i ramBase = 0 := ⟨rfl, rfl, rfl⟩
  have top : l2i (ramBase + ramSize) = 48 ∧ ramBase + ramSize = 0x60000000 := ⟨rfl, rfl⟩
  unfold opalBuildTables
  rw [if_neg present]
  dsimp only
  rw [at0, at1, at2, at3, at4, uart.1, uart.2.1, ram.1, ram.2.1, ram.2.2, top.1, top.2, uart.2.2]
  rfl

section
variable (base : Nat) (page : Nat → Option Nat) (mem : Memory) (small : base + 14 * 2 ^ 14 ≤ 2 ^ 48) (aligned : base % 2 ^ 14 = 0)
  (zeroed : ∀ a, tableAt base 0 ≤ a → a < tableAt base 14 → mem a = 0)
include small aligned

omit aligned in
theorem table_at_small (k : Nat) (within : k < 14) : tableAt base k < 2 ^ 48 := by
  unfold tableAt
  omega

omit small in
theorem table_at_aligned (k : Nat) : tableAt base k % 2 ^ 14 = 0 := by
  unfold tableAt
  omega

include zeroed

omit small aligned in
theorem tree_entry (level k i : Nat) (within : k < 14) (inside : i < 2048) :
    entry (treeMemory base page mem) level (tableAt base k) i = decode level (treeWord base page k i) := by
  rw [entry, if_pos inside, tree_memory_word base page mem zeroed k i within inside]

theorem tree_trunk (i j : Nat) (rest : List Nat) (i_small : i < 2048) (j_small : j < 2048) :
    TableTree.lookup (entry (treeMemory base page mem)) 0 (tableAt base 0) (i :: j :: rest) =
      if i = 0 ∧ j = 0 then TableTree.lookup (entry (treeMemory base page mem)) 2 (tableAt base 2) rest else none := by
  have below_ := table_at_small base small
  have edge := table_at_aligned base aligned
  have step := tree_entry base page mem zeroed
  by_cases first : i = 0
  · rw [TableTree.lookup, step 0 0 i (by omega) i_small, treeWord, if_pos first,
      decode_table 0 _ (by omega) (below_ 1 (by omega)) (edge 1)]
    dsimp only
    by_cases second : j = 0
    · rw [TableTree.lookup, step _ 1 j (by omega) j_small, treeWord, if_pos second,
        decode_table _ _ (by omega) (below_ 2 (by omega)) (edge 2), if_pos ⟨first, second⟩]
    · rw [TableTree.lookup, step _ 1 j (by omega) j_small, treeWord, if_neg second, decode_zero,
        if_neg fun both => second both.2]
  · rw [TableTree.lookup, step 0 0 i (by omega) i_small, treeWord, if_neg first, decode_zero,
      if_neg fun both => first both.1]

theorem tree_page (va i : Nat) (trunk : va / 2 ^ 47 % 2 = 0 ∧ va / 2 ^ 36 % 2048 = 0 ∧ va / 2 ^ 25 % 2048 = 32)
    (slot : va / 2 ^ 14 % 2048 = i) :
    translate (treeMemory base page mem) (tableAt base 0) va =
      (TableTree.lookup (entry (treeMemory base page mem)) 3 (tableAt base 3) [i]).map (target va) := by
  rw [translate, indices_eq, tree_trunk base page mem small aligned zeroed _ _ _ (by omega) (by omega),
    if_pos ⟨trunk.1, trunk.2.1⟩, TableTree.lookup, tree_entry base page mem zeroed 2 2 _ (by omega) (by omega), trunk.2.2,
    treeWord, if_neg (by omega), if_pos rfl,
    decode_table 2 _ (by omega) (table_at_small base small 3 (by omega)) (table_at_aligned base aligned 3), slot]

theorem tree_block (va i : Nat) (trunk : va / 2 ^ 47 % 2 = 0 ∧ va / 2 ^ 36 % 2048 = 0 ∧ va / 2 ^ 25 % 2048 = i)
    (ram : 33 ≤ i ∧ i < 48) :
    translate (treeMemory base page mem) (tableAt base 0) va = some (i * 2 ^ 25 + va % 2 ^ 25, Attr.rw.access) := by
  rw [translate, indices_eq, tree_trunk base page mem small aligned zeroed _ _ _ (by omega) (by omega),
    if_pos ⟨trunk.1, trunk.2.1⟩, TableTree.lookup, tree_entry base page mem zeroed 2 2 _ (by omega) (by omega), trunk.2.2,
    treeWord, if_neg (by omega), if_neg (by omega), if_pos ram, decode_block _ _ (by omega)]
  exact congrArg some (target_block va (i * 2 ^ 25) _ .rw (by omega) (by omega))

end

end Mmu

end Opal
