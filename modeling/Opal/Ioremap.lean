import Opal.BootMap
import Opal.Run

set_option autoImplicit false

namespace Opal

namespace Mmu

-- The kernel's tree with every table in TABLES, each of them on one path. A
-- runtime table that the cursor has not passed holds nothing and hangs nowhere.
structure Wired (layout : Layout) (s : State) (place : Nat → Option (List Nat)) : Prop where
  rooted : TableTree.Rooted (entry s.mem) (layout.table 0) place
  root : s.ttbr1 = layout.table 0
  shallow : ∀ t path, place t = some path → path.length ≤ 3
  hung : ∀ t path, place t = some path → ∃ k, k < 14 ∧ t = layout.table k ∧ k ≠ 5 ∧ k < 6 + s.runtimeIdx
  blank : ∀ k i, k < 14 → k = 5 ∨ 6 + s.runtimeIdx ≤ k → i < 2048 → s.mem (layout.table k + i * 8) = 0
  counted : s.runtimeIdx < 2 ^ 64

-- What a step leaves as it was: the answers, the places, all other memory.
structure Grows (layout : Layout) (s s' : State) (place place' : Nat → Option (List Nat)) : Prop where
  wired : Wired layout s' place'
  keeps : ∀ t path, place t = some path → place' t = some path
  same : ∀ query, TableTree.lookup (entry s'.mem) 0 (layout.table 0) query =
    TableTree.lookup (entry s.mem) 0 (layout.table 0) query
  ttbr0 : s'.ttbr0 = s.ttbr0
  outside : ∀ a, a < layout.table 0 ∨ layout.table 14 ≤ a → s'.mem a = s.mem a

section
variable {layout : Layout} {s : State} {place : Nat → Option (List Nat)}

theorem Wired.grows (wired : Wired layout s place) : Grows layout s s place place :=
  ⟨wired, fun _ _ hangs => hangs, fun _ => rfl, rfl, fun _ _ => rfl⟩

theorem Grows.trans {s' s'' : State} {place' place'' : Nat → Option (List Nat)} (first : Grows layout s s' place place')
    (second : Grows layout s' s'' place' place'') : Grows layout s s'' place place'' where
  wired := second.wired
  keeps := fun t path hangs => second.keeps t path (first.keeps t path hangs)
  same := fun query => (second.same query).trans (first.same query)
  ttbr0 := second.ttbr0.trans first.ttbr0
  outside := fun a away => (second.outside a away).trans (first.outside a away)

theorem table_injective (k j : Nat) (same : layout.table k = layout.table j) : k = j := by
  unfold Layout.table tableAt at same
  omega

theorem Wired.aligned (wired : Wired layout s place) (t : Nat) (path : List Nat) (hangs : place t = some path) :
    t % 2 ^ 14 = 0 := by
  obtain ⟨k, _, rfl, _⟩ := wired.hung t path hangs
  exact table_aligned layout k

theorem Wired.skip (wired : Wired layout s place) (idx : Nat) (later : s.runtimeIdx ≤ idx) (counted : idx < 2 ^ 64) :
    Grows layout s { s with runtimeIdx := idx } place place where
  wired :=
    { wired with
      hung := fun t path hangs => by
        obtain ⟨k, within, at_, other, used⟩ := wired.hung t path hangs
        exact ⟨k, within, at_, other, by dsimp only; omega⟩
      blank := fun k i within which inside => wired.blank k i within (by dsimp only at which; omega) inside
      counted := counted }
  keeps := fun _ _ hangs => hangs
  same := fun _ => rfl
  ttbr0 := rfl
  outside := fun _ _ => rfl

theorem runtime_table (layout : Layout) (idx : Nat) : layout.runtime idx = layout.table (6 + idx) := rfl

theorem alloc_empty (used : 8 ≤ s.runtimeIdx) (counted : s.runtimeIdx + 1 < 2 ^ 64) :
    s.allocRuntimeTable layout = (none, { s with runtimeIdx := s.runtimeIdx + 1 }) := by
  rw [State.allocRuntimeTable, if_pos used, Nat.mod_eq_of_lt counted]

theorem alloc_next (free : s.runtimeIdx < 8) :
    s.allocRuntimeTable layout =
      (some (layout.table (6 + s.runtimeIdx)), { s with runtimeIdx := s.runtimeIdx + 1 }) := by
  rw [State.allocRuntimeTable, if_neg (by omega), Nat.mod_eq_of_lt (by omega), runtime_table]

theorem Wired.spare_entry (wired : Wired layout s place) (k level i : Nat) (within : k < 14)
    (spare : k = 5 ∨ 6 + s.runtimeIdx ≤ k) : entry s.mem level (layout.table k) i = .absent := by
  unfold entry
  by_cases inside : i < 2048
  · rw [if_pos inside, wired.blank k i within spare inside, decode_zero]
  · rw [if_neg inside]

theorem Wired.spare_place (wired : Wired layout s place) (k : Nat) (spare : k = 5 ∨ 6 + s.runtimeIdx ≤ k) :
    place (layout.table k) = none := by
  cases hangs : place (layout.table k) with
  | none => rfl
  | some path =>
      obtain ⟨j, _, at_, other, used⟩ := wired.hung _ path hangs
      have same := table_injective k j at_
      omega

theorem Wired.write_elsewhere (wired : Wired layout s place) (t i desc : Nat) (path : List Nat)
    (hangs : place t = some path) (inside : i < 2048) (u : Nat) (other : List Nat) (j : Nat) (also : place u = some other)
    (apart : other ++ [j] ≠ path ++ [i]) :
    entry (writeTable s.mem t i desc) other.length u j = entry s.mem other.length u j := by
  rw [entry_write s.mem t i desc _ u j (wired.aligned t path hangs) (wired.aligned u other also) inside, if_neg]
  rintro ⟨rfl, rfl⟩
  rw [hangs] at also
  exact apart (by rw [Option.some.inj also])

theorem Wired.write_here (wired : Wired layout s place) (t i desc level : Nat) (path : List Nat)
    (hangs : place t = some path) (inside : i < 2048) :
    entry (writeTable s.mem t i desc) level t i = decode level desc := by
  have aligned := wired.aligned t path hangs
  rw [entry_write s.mem t i desc level t i aligned aligned inside, if_pos ⟨rfl, rfl⟩]

theorem Wired.write_other (wired : Wired layout s place) (t i desc k j : Nat) (path : List Nat) (hangs : place t = some path)
    (inside : i < 2048) (j_small : j < 2048) (unhung : place (layout.table k) = none) :
    writeTable s.mem t i desc (layout.table k + j * 8) = s.mem (layout.table k + j * 8) := by
  obtain ⟨k', within, rfl, _⟩ := wired.hung t path hangs
  have apart : k ≠ k' := by
    rintro rfl
    rw [hangs] at unhung
    cases unhung
  rw [writeTable, store, Function.update_of_ne (by unfold Layout.table tableAt; omega)]

theorem Wired.write_outside (wired : Wired layout s place) (t i desc a : Nat) (path : List Nat)
    (hangs : place t = some path) (inside : i < 2048) (away : a < layout.table 0 ∨ layout.table 14 ≤ a) :
    writeTable s.mem t i desc a = s.mem a := by
  obtain ⟨k, within, rfl, _⟩ := wired.hung t path hangs
  rw [writeTable, store, Function.update_of_ne (by unfold Layout.table tableAt at away ⊢; omega)]

theorem link_step (wired : Wired layout s place) (t i : Nat) (path : List Nat) (hangs : place t = some path)
    (above : path.length < 3) (inside : i < 2048) (absent : entry s.mem path.length t i = .absent)
    (room : s.runtimeIdx ≠ 2 ^ 64 - 1) :
    ∃ place', Grows layout s (s.linkTable layout t i).2 place place' ∧
      ∀ u, (s.linkTable layout t i).1 = .ok u →
        place' u = some (path ++ [i]) ∧ (s.linkTable layout t i).2.runtimeIdx ≤ 8 := by
  have counted := wired.counted
  by_cases free : s.runtimeIdx < 8
  · rw [State.linkTable, alloc_next free]
    dsimp only
    generalize fresh : 6 + s.runtimeIdx = k
    have unhung := wired.spare_place k (.inr (by omega))
    have apart : layout.table k ≠ t := by
      rintro rfl
      rw [hangs] at unhung
      cases unhung
    have blank : ∀ level j, entry (writeTable s.mem t i (tableDesc (layout.table k))) level (layout.table k) j = .absent := by
      intro level j
      rw [entry_write s.mem t i _ level _ j (wired.aligned t path hangs) (table_aligned layout k) inside,
        if_neg fun both => apart both.1]
      exact wired.spare_entry k level j (by omega) (.inr (by omega))
    have linked : entry (writeTable s.mem t i (tableDesc (layout.table k))) path.length t i = .table (layout.table k) := by
      rw [wired.write_here t i _ _ path hangs inside]
      exact decode_table _ _ above (table_small layout k (by omega)) (table_aligned layout k)
    have same := wired.write_elsewhere t i (tableDesc (layout.table k)) path hangs inside
    have old : ∀ u other, place u = some other → u ≠ layout.table k := by
      rintro u other also rfl
      rw [unhung] at also
      cases also
    refine ⟨Function.update place (layout.table k) (some (path ++ [i])), ⟨⟨?_, wired.root, ?_, ?_, ?_, ?_⟩, ?_, ?_, rfl, ?_⟩, ?_⟩
    · exact wired.rooted.link t _ path i hangs absent unhung blank linked same
    · intro u other also
      by_cases new : u = layout.table k
      · rw [new, Function.update_self] at also
        rw [← Option.some.inj also, List.length_append, List.length_singleton]
        omega
      · rw [Function.update_of_ne new] at also
        exact wired.shallow u other also
    · intro u other also
      by_cases new : u = layout.table k
      · exact ⟨k, by omega, new, by omega, by dsimp only; omega⟩
      · rw [Function.update_of_ne new] at also
        obtain ⟨j, within, at_, other, used⟩ := wired.hung u _ also
        exact ⟨j, within, at_, other, by dsimp only; omega⟩
    · intro j slot within spare inside'
      dsimp only at spare ⊢
      rw [wired.write_other t i _ j slot path hangs inside inside' (wired.spare_place j (by omega))]
      exact wired.blank j slot within (by omega) inside'
    · dsimp only
      omega
    · intro u other also
      rw [Function.update_of_ne (old u other also)]
      exact also
    · exact TableTree.lookup_link wired.rooted t _ path i hangs absent unhung blank linked same
    · exact fun a away => wired.write_outside t i _ a path hangs inside away
    · intro u same
      cases same
      exact ⟨Function.update_self .., free⟩
  · rw [State.linkTable, alloc_empty (by omega) (by omega)]
    exact ⟨place, wired.skip _ (by omega) (by omega), fun u no => (by cases no)⟩

theorem ensure_step (wired : Wired layout s place) (t i : Nat) (path : List Nat) (hangs : place t = some path)
    (above : path.length < 3) (inside : i < 2048)
    (room : readTable s.mem t i &&& 0b11 = 0 ∨ readTable s.mem t i &&& 0b11 = 2 → s.runtimeIdx ≠ 2 ^ 64 - 1) :
    ∃ place', Grows layout s (s.ensureTable layout t i).2 place place' ∧
      ∀ u, (s.ensureTable layout t i).1 = .ok u → place' u = some (path ++ [i]) ∧
        ((s.ensureTable layout t i).2.runtimeIdx ≤ 8 ∨
          (s.ensureTable layout t i).2 = s ∧ readTable s.mem t i &&& 0b11 = 0b11 ∧
            u = readTable s.mem t i &&& 0x0000FFFFFFFFC000) := by
  have found : entry s.mem path.length t i = decode path.length (readTable s.mem t i) := by
    rw [entry, if_pos inside]
    rfl
  unfold State.ensureTable
  generalize readTable s.mem t i = desc at room found
  dsimp only
  have bound := kind_lt desc
  have absent : desc &&& 0b11 = 0 ∨ desc &&& 0b11 = 2 →
      ∃ place', Grows layout s (s.linkTable layout t i).2 place place' ∧
        ∀ u, (s.linkTable layout t i).1 = .ok u → place' u = some (path ++ [i]) ∧
          ((s.linkTable layout t i).2.runtimeIdx ≤ 8 ∨ (s.linkTable layout t i).2 = s ∧ desc &&& 0b11 = 0b11 ∧
            u = desc &&& 0x0000FFFFFFFFC000) := by
    intro kind
    obtain ⟨place', grows, linked⟩ :=
      link_step wired t i path hangs above inside (found.trans (decode_absent _ desc kind)) (room kind)
    exact ⟨place', grows, fun u same => ⟨(linked u same).1, .inl (linked u same).2⟩⟩
  generalize kind : desc &&& 0b11 = k at bound absent ⊢
  interval_cases k
  · exact absent (.inl rfl)
  · exact ⟨place, wired.grows, fun u no => (by cases no)⟩
  · exact absent (.inr rfl)
  · refine ⟨place, wired.grows, fun u same => ?_⟩
    cases same
    exact ⟨wired.rooted.links t path i _ hangs (found.trans (decode_descend _ desc above kind)), .inr ⟨rfl, rfl, rfl⟩⟩

theorem leaf_step (wired : Wired layout s place) (t i desc : Nat) (path : List Nat) (hangs : place t = some path)
    (bottom : path.length = 3) (inside : i < 2048) (leaf : decode 3 desc = .leaf desc) :
    Wired layout { s with mem := writeTable s.mem t i desc } place ∧
      ∀ query, TableTree.lookup (entry (writeTable s.mem t i desc)) 0 (layout.table 0) query =
        if path ++ [i] <+: query then some (desc, query.drop 4)
        else TableTree.lookup (entry s.mem) 0 (layout.table 0) query := by
  have set : entry (writeTable s.mem t i desc) path.length t i = .leaf desc := by
    rw [wired.write_here t i desc _ path hangs inside, bottom, leaf]
  have not_table : ∀ u, entry s.mem path.length t i ≠ .table u := by
    intro u
    rw [entry, if_pos inside, bottom]
    exact decode_bottom _ u
  have same := wired.write_elsewhere t i desc path hangs inside
  refine ⟨?_, fun query => ?_⟩
  · exact
      { wired with
        rooted := wired.rooted.set t path i desc hangs set not_table same
        blank := fun k j within spare j_small => by
          dsimp only at spare ⊢
          rw [wired.write_other t i desc k j path hangs inside j_small (wired.spare_place k spare)]
          exact wired.blank k j within spare j_small }
  · rw [TableTree.lookup_set wired.rooted t path i desc hangs set not_table same query, bottom]

end

-- The descriptor at this entry is invalid: ensure_table has to take a table.
def State.Invalid (s : State) (tablePa idx : Nat) : Prop :=
  readTable s.mem tablePa idx &&& 0b11 = 0 ∨ readTable s.mem tablePa idx &&& 0b11 = 2

-- Calls that take a table from the pool, or would if it had one.
def State.Allocates (s : State) (va pa : Nat) : Prop :=
  va &&& (granule - 1) = 0 ∧ pa &&& (granule - 1) = 0 ∧ va >>> 48 = 0xFFFF ∧
    let l0Desc := readTable s.mem s.ttbr1 (vaL0i va)
    let l1Pa := l0Desc &&& 0x0000FFFFFFFFC000
    let l1Desc := readTable s.mem l1Pa (vaL1i va)
    l0Desc &&& 0b11 = 0b11 ∧
      (s.Invalid l1Pa (vaL1i va) ∨ l1Desc &&& 0b11 = 0b11 ∧ s.Invalid (l1Desc &&& 0x0000FFFFFFFFC000) (vaL2i va))

-- The step at which RUNTIME_IDX wraps around, after 2^64 of them.
def State.Wraps (s : State) (va pa : Nat) : Prop := s.runtimeIdx = 2 ^ 64 - 1 ∧ s.Allocates va pa

-- What a call does to the tree, and to nothing else.
structure Remaps (layout : Layout) (s : State) (attr : Attr) (va pa : Nat) (result : Except IoremapError Unit)
    (s' : State) : Prop where
  wired : ∃ place, Wired layout s' place
  ttbr0 : s'.ttbr0 = s.ttbr0
  outside : ∀ a, a < layout.table 0 ∨ layout.table 14 ≤ a → s'.mem a = s.mem a
  mapped : result = .ok () → va >>> 48 = 0xFFFF ∧ va % 2 ^ 14 = 0 ∧ pa % 2 ^ 14 = 0 ∧
    ∀ query, TableTree.lookup (entry s'.mem) 0 (layout.table 0) query =
      if indices va <+: query then some (pageDesc pa attr, query.drop 4)
      else TableTree.lookup (entry s.mem) 0 (layout.table 0) query
  failed : result ≠ .ok () → ∀ query, TableTree.lookup (entry s'.mem) 0 (layout.table 0) query =
    TableTree.lookup (entry s.mem) 0 (layout.table 0) query

section
variable {layout : Layout} {s : State} {place : Nat → Option (List Nat)}

theorem Grows.refused {s' : State} {place' : Nat → Option (List Nat)} (grows : Grows layout s s' place place')
    (attr : Attr) (va pa : Nat) (e : IoremapError) : Remaps layout s attr va pa (.error e) s' where
  wired := ⟨place', grows.wired⟩
  ttbr0 := grows.ttbr0
  outside := grows.outside
  mapped := fun no => (by cases no)
  failed := fun _ => grows.same

theorem ioremap_step (wired : Wired layout s place) (attr : Attr) (va pa : Nat) (fits : ¬ s.Wraps va pa) :
    Remaps layout s attr va pa (s.ioremap layout attr va pa).1 (s.ioremap layout attr va pa).2 := by
  have mask : ∀ x, x &&& (granule - 1) = x % 2 ^ 14 := fun x => Nat.and_two_pow_sub_one_eq_mod x 14
  have top : place (layout.table 0) = some [] := (wired.rooted.root _).mpr rfl
  have small : ∀ i ∈ [vaL0i va, vaL1i va, vaL2i va, vaL3i va], i < 2048 := indices_small va
  rw [List.forall_mem_cons, List.forall_mem_cons, List.forall_mem_cons, List.forall_mem_cons] at small
  obtain ⟨i0_small, i1_small, i2_small, i3_small, _⟩ := small
  unfold State.ioremap
  by_cases misaligned : va &&& (granule - 1) ≠ 0 ∨ pa &&& (granule - 1) ≠ 0
  · rw [if_pos misaligned]
    exact wired.grows.refused attr va pa _
  · rw [if_neg misaligned]
    rw [not_or, not_not, not_not] at misaligned
    by_cases low : va >>> 48 ≠ 0xFFFF
    · rw [if_pos low]
      exact wired.grows.refused attr va pa _
    · rw [if_neg low]
      rw [not_not] at low
      dsimp only
      by_cases broken : readTable s.mem s.ttbr1 (vaL0i va) &&& 0b11 ≠ 0b11
      · rw [if_pos broken]
        exact wired.grows.refused attr va pa _
      · rw [if_neg broken]
        rw [not_not] at broken
        generalize l1_at : readTable s.mem s.ttbr1 (vaL0i va) &&& 0x0000FFFFFFFFC000 = l1
        have at_l1 : place l1 = some [vaL0i va] := by
          refine wired.rooted.links _ [] (vaL0i va) l1 top ?_
          rw [entry, if_pos i0_small, ← l1_at, wired.root]
          exact decode_descend 0 _ (by omega) (wired.root ▸ broken)
        have fits1 : s.Invalid l1 (vaL1i va) → s.runtimeIdx ≠ 2 ^ 64 - 1 := fun invalid last =>
          fits ⟨last, misaligned.1, misaligned.2, low, broken, .inl (l1_at ▸ invalid)⟩
        have fits2 : readTable s.mem l1 (vaL1i va) &&& 0b11 = 0b11 →
            s.Invalid (readTable s.mem l1 (vaL1i va) &&& 0x0000FFFFFFFFC000) (vaL2i va) →
            s.runtimeIdx ≠ 2 ^ 64 - 1 := fun present invalid last =>
          fits ⟨last, misaligned.1, misaligned.2, low, broken, .inr (l1_at ▸ ⟨present, invalid⟩)⟩
        obtain ⟨place1, grows1, found1⟩ := ensure_step wired l1 (vaL1i va) _ at_l1 (by simp) i1_small fits1
        rcases ensured1 : s.ensureTable layout l1 (vaL1i va) with ⟨e | l2, s1⟩
        · rw [ensured1] at grows1
          exact grows1.refused attr va pa e
        · rw [ensured1] at grows1 found1
          obtain ⟨at_l2, origin⟩ := found1 l2 rfl
          have room : s1.Invalid l2 (vaL2i va) → s1.runtimeIdx ≠ 2 ^ 64 - 1 := by
            intro invalid
            rcases origin with few | ⟨same, present, l2_at⟩
            · dsimp only at few
              omega
            · dsimp only at same
              subst same l2_at
              exact fits2 present invalid
          obtain ⟨place2, grows2, found2⟩ :=
            ensure_step grows1.wired l2 (vaL2i va) _ at_l2 (by simp) i2_small room
          dsimp only
          rcases ensured2 : s1.ensureTable layout l2 (vaL2i va) with ⟨e | l3, s2⟩
          · rw [ensured2] at grows2
            exact (grows1.trans grows2).refused attr va pa e
          · rw [ensured2] at grows2 found2
            have grows := grows1.trans grows2
            have at_l3 := (found2 l3 rfl).1
            have aligned : pa % 2 ^ 14 = 0 := (mask pa).symm.trans misaligned.2
            obtain ⟨wired', leaf⟩ := leaf_step grows.wired l3 (vaL3i va) (pageDesc pa attr) _ at_l3 rfl i3_small
              (decode_page pa attr aligned)
            refine ⟨⟨place2, wired'⟩, grows.ttbr0, fun a away => ?_, fun _ => ?_, fun no => absurd rfl no⟩
            · exact (grows.wired.write_outside l3 _ _ a _ at_l3 i3_small away).trans (grows.outside a away)
            · refine ⟨low, (mask va).symm.trans misaligned.1, aligned, fun query => ?_⟩
              rw [leaf query, grows.same query]
              rfl

theorem Wired.walk_high (wired : Wired layout s place) (known : Nat → Bool) (knows : ∀ k, k < 14 → known (layout.table k) = true)
    (va : Nat) (high : va >>> 48 = 0xFFFF) :
    (s.walkWith known va).translation = translate s.mem (layout.table 0) va := by
  have found := Mmu.walk_high known s va high (fun level t => ∃ path, place t = some path ∧ path.length = level) ?_ ?_ ?_ ?_
  · rwa [wired.root] at found
  · rintro level t i u ⟨path, hangs, rfl⟩ linked
    exact ⟨path ++ [i], wired.rooted.links t path i u hangs linked, List.length_append⟩
  · rintro level t ⟨path, hangs, _⟩
    obtain ⟨k, within, rfl, _⟩ := wired.hung t path hangs
    exact knows k within
  · rw [wired.root]
    exact root_kept _ (table_small layout 0 (by omega)) (table_aligned layout 0)
  · rw [wired.root]
    exact ⟨[], (wired.rooted.root _).mpr rfl, rfl⟩

theorem Wired.walk_low (wired : Wired layout s place) (condemned : s.ttbr0 = layout.emptyRoot) (known : Nat → Bool)
    (knows : ∀ k, k < 14 → known (layout.table k) = true) (va : Nat) (low : va >>> 48 = 0) :
    (s.walkWith known va).translation = none := by
  have empty : s.ttbr0 = layout.table 5 := condemned
  have absent : ∀ level i, entry s.mem level (layout.table 5) i = .absent := fun level i =>
    wired.spare_entry 5 level i (by omega) (.inl rfl)
  rw [Mmu.walk_low known s va low (fun _ t => t = layout.table 5) ?_ ?_ ?_ empty, empty, translate, indices,
    TableTree.lookup, absent]
  · rfl
  · rintro level t i u rfl linked
    rw [absent] at linked
    cases linked
  · rintro level t rfl
    exact knows 5 (by omega)
  · rw [empty]
    exact root_kept _ (table_small layout 5 (by omega)) (table_aligned layout 5)

theorem in_tables (k : Nat) (within : k < 14) : layout.inTables (layout.table k) = true := by
  unfold Layout.inTables Layout.table tableAt Layout.tablesLen granule
  simp only [decide_eq_true_eq]
  omega

theorem walk_neither (known : Nat → Bool) (s : State) (va : Nat) (high : va >>> 48 ≠ 0xFFFF) (low : va >>> 48 ≠ 0) :
    (s.walkWith known va).translation = none := by
  rw [State.walkWith, if_neg high, if_neg low]
  rfl

end

theorem indices_page (va other : Nat) (high : va >>> 48 = 0xFFFF) (also : other >>> 48 = 0xFFFF) :
    indices va <+: indices other ↔ va / 2 ^ 14 = other / 2 ^ 14 := by
  rw [Nat.shiftRight_eq_div_pow] at high also
  refine ⟨fun begins => ?_, fun page => ?_⟩
  · have same := begins.eq_of_length rfl
    rw [indices_eq, indices_eq] at same
    simp only [List.cons.injEq, and_true] at same
    omega
  · have same : indices va = indices other := by
      rw [indices_eq, indices_eq, page, show va / 2 ^ 25 = other / 2 ^ 25 by omega,
        show va / 2 ^ 36 = other / 2 ^ 36 by omega, show va / 2 ^ 47 = other / 2 ^ 47 by omega]
    rw [same]

inductive IoremapCall where
  | device (va pa : Nat)
  | framebuffer (va pa : Nat)
  deriving DecidableEq, Repr

namespace IoremapCall

def va : IoremapCall → Nat
  | device va _ => va
  | framebuffer va _ => va

def pa : IoremapCall → Nat
  | device _ pa => pa
  | framebuffer _ pa => pa

def attr : IoremapCall → Attr
  | device .. => .device
  | framebuffer .. => .framebuffer

def run (layout : Layout) (s : State) : IoremapCall → Except IoremapError Unit × State
  | device va pa => s.ioremapDevice layout va pa
  | framebuffer va pa => s.ioremapFramebuffer layout va pa

def next (layout : Layout) (s : State) (call : IoremapCall) : State := (call.run layout s).2

theorem run_eq (layout : Layout) (s : State) (call : IoremapCall) :
    call.run layout s = s.ioremap layout call.attr call.va call.pa := by
  cases call <;> rfl

-- A call in the linear map changes the translation of its page, or nothing.
def Exact (layout : Layout) (s : State) (call : IoremapCall) : Prop :=
  call.pa < 2 ^ 48 → call.va = physToVirt call.pa →
    let s' := (call.run layout s).2
    match (call.run layout s).1 with
    | .ok _ =>
        (∀ off, off < 2 ^ 14 →
          (s'.walk layout (call.va + off)).translation = some (call.pa + off, call.attr.access)) ∧
        ∀ va, (∀ off, off < 2 ^ 14 → va ≠ call.va + off) →
          (s'.walk layout va).translation = (s.walk layout va).translation
    | .error _ => ∀ va, (s'.walk layout va).translation = (s.walk layout va).translation

-- No runtime table has two parent entries.
def LinkedOnce (layout : Layout) (s : State) : Prop :=
  ∀ k t u i j, k < 8 → TableTree.Parent (entry s.mem) s.ttbr1 t i (layout.runtime k) →
    TableTree.Parent (entry s.mem) s.ttbr1 u j (layout.runtime k) → t = u ∧ i = j

end IoremapCall

section
variable {layout : Layout} {s : State} {place : Nat → Option (List Nat)}

theorem Wired.walk_same (wired : Wired layout s place) (condemned : s.ttbr0 = layout.emptyRoot) {s' : State}
    {place' : Nat → Option (List Nat)} (wired' : Wired layout s' place') (same_root : s'.ttbr0 = s.ttbr0) (va : Nat)
    (same : va >>> 48 = 0xFFFF → TableTree.lookup (entry s'.mem) 0 (layout.table 0) (indices va) =
      TableTree.lookup (entry s.mem) 0 (layout.table 0) (indices va)) :
    (s'.walk layout va).translation = (s.walk layout va).translation := by
  unfold State.walk
  by_cases high : va >>> 48 = 0xFFFF
  · rw [wired'.walk_high layout.inTables in_tables va high, wired.walk_high layout.inTables in_tables va high,
      translate, translate, same high]
  · by_cases low : va >>> 48 = 0
    · rw [wired'.walk_low (same_root.trans condemned) layout.inTables in_tables va low,
        wired.walk_low condemned layout.inTables in_tables va low]
    · rw [walk_neither _ s' va high low, walk_neither _ s va high low]

theorem Wired.exact_call (wired : Wired layout s place) (condemned : s.ttbr0 = layout.emptyRoot) (call : IoremapCall)
    (fits : ¬ s.Wraps call.va call.pa) : call.Exact layout s := by
  intro small linear
  have remaps := ioremap_step wired call.attr call.va call.pa fits
  rw [call.run_eq layout s]
  obtain ⟨place', wired'⟩ := remaps.wired
  have same := fun va => wired.walk_same condemned wired' remaps.ttbr0 va
  have mapped := remaps.mapped
  have failed := remaps.failed
  dsimp only
  cases result : (s.ioremap layout call.attr call.va call.pa).1 with
  | error e =>
      have refused : (s.ioremap layout call.attr call.va call.pa).1 ≠ .ok () := fun no => by
        rw [result] at no
        cases no
      exact fun va => same va fun _ => failed refused (indices va)
  | ok done =>
      obtain ⟨high, va_aligned, pa_aligned, leaf⟩ := mapped result
      refine ⟨fun off inside => ?_, fun va apart => same va fun also => ?_⟩
      · have up : (call.va + off) >>> 48 = 0xFFFF := by
          rw [Nat.shiftRight_eq_div_pow] at high ⊢
          omega
        have page := (indices_page call.va (call.va + off) high up).mpr (by omega)
        rw [State.walk, wired'.walk_high layout.inTables in_tables _ up, translate, leaf, if_pos page]
        have found := target_page (call.va + off) call.pa call.attr small pa_aligned
        rw [show call.pa + (call.va + off) % 2 ^ 14 = call.pa + off by omega] at found
        exact congrArg some found
      · rw [leaf, if_neg]
        intro page
        have near := (indices_page call.va va high also).mp page
        exact apart (va - call.va) (by omega) (by omega)

theorem Wired.linked_once (wired : Wired layout s place) : IoremapCall.LinkedOnce layout s := by
  intro k t u i j _ first second
  rw [wired.root] at first second
  exact wired.rooted.one_parent t u _ i j first second

end

section
variable {layout : Layout} {mem : Memory}

theorem boot_wired (zeroed : Zeroed layout mem) :
    Wired layout ((opalMmuEnable (layout.table 0) (bootMemory layout mem)).condemnLowHalf layout) (bootPlace layout) where
  rooted := boot_rooted layout mem zeroed
  root := rfl
  shallow := fun t path hangs => by
    obtain ⟨k, _, _, at_k⟩ := boot_place_cases layout t path hangs
    rcases boot_path_cases k path at_k with ⟨_, rfl⟩ | ⟨_, rfl⟩ | ⟨_, rfl⟩ | ⟨_, rfl⟩ | ⟨_, rfl⟩ <;> decide
  hung := fun t path hangs => by
    obtain ⟨k, within, at_, _⟩ := boot_place_cases layout t path hangs
    exact ⟨k, by omega, at_, by omega, by omega⟩
  blank := fun k i within spare inside => by
    have past : 5 ≤ k := by
      rcases spare with rfl | spare
      · exact le_refl 5
      · exact Nat.le_trans (Nat.le_add_left 5 1) spare
    exact (boot_memory_word layout mem zeroed k i within inside).trans (tree_word_spare _ _ k i past)
  counted := Nat.two_pow_pos 64

end

-- Any calls one after another, from the tables that the builder leaves, with the
-- low half condemned. As long as RUNTIME_IDX does not wrap around, each is exact
-- and atomic, and no table is linked twice.
theorem ioremap_exact (layout : Layout) (mmfr0 : Nat) (mem : Memory) (root : Nat) (built : Memory)
    (zeroed : Zeroed layout mem) (builds : opalBuildTables layout 0 mmfr0 mem = some (root, built))
    (calls : List IoremapCall)
    (unwrapped : Run.Along (IoremapCall.next layout) (fun s call => ¬ s.Wraps call.va call.pa)
      ((opalMmuEnable root built).condemnLowHalf layout) calls) :
    Run.Along (IoremapCall.next layout) (fun s call => call.Exact layout s)
        ((opalMmuEnable root built).condemnLowHalf layout) calls ∧
      Run.Always (IoremapCall.next layout) (IoremapCall.LinkedOnce layout)
        ((opalMmuEnable root built).condemnLowHalf layout) calls := by
  obtain ⟨rfl, rfl⟩ := build_succeeds layout mmfr0 mem root built builds
  have step : ∀ (s : State) (call : IoremapCall), (∃ place, Wired layout s place ∧ s.ttbr0 = layout.emptyRoot) →
      ¬ s.Wraps call.va call.pa →
      (∃ place, Wired layout (call.next layout s) place ∧ (call.next layout s).ttbr0 = layout.emptyRoot) ∧
        call.Exact layout s := by
    rintro s call ⟨place, wired, condemned⟩ fits
    have remaps := ioremap_step wired call.attr call.va call.pa fits
    rw [← call.run_eq layout s] at remaps
    obtain ⟨place', wired'⟩ := remaps.wired
    exact ⟨⟨place', wired', remaps.ttbr0.trans condemned⟩, wired.exact_call condemned call fits⟩
  have initial : ∃ place, Wired layout ((opalMmuEnable (layout.table 0) (bootMemory layout mem)).condemnLowHalf layout)
      place ∧ _ = layout.emptyRoot := ⟨bootPlace layout, boot_wired zeroed, rfl⟩
  exact ⟨Run.along_of_invariant _ _ _ _ step _ _ initial unwrapped,
    Run.always_of_invariant _ _ _ _ (fun s call kept fits => (step s call kept fits).1)
      (fun s ⟨_, wired, _⟩ => wired.linked_once) _ _ initial unwrapped⟩

theorem ioremap_exact_device :
    ∃ root built, opalBuildTables sampleLayout 0 0x100000 (fun _ => 0) = some (root, built) ∧
      Run.Along (IoremapCall.next sampleLayout) (fun s call => call.Exact sampleLayout s)
          ((opalMmuEnable root built).condemnLowHalf sampleLayout) [.device (physToVirt 0x10000000) 0x10000000] ∧
        Run.Always (IoremapCall.next sampleLayout) (IoremapCall.LinkedOnce sampleLayout)
          ((opalMmuEnable root built).condemnLowHalf sampleLayout) [.device (physToVirt 0x10000000) 0x10000000] := by
  have builds := build_tables sampleLayout 0x100000 (fun _ => 0) (by decide)
  refine ⟨_, _, builds, ioremap_exact sampleLayout 0x100000 (fun _ => 0) _ _ (fun _ _ _ => rfl) builds _ ⟨?_, trivial⟩⟩
  exact fun wraps => absurd wraps.1.symm (Nat.add_one_ne_zero (2 ^ 64 - 2))

-- With the pool used up a call that needs a level 2 table moves the cursor on
-- and does nothing else.
theorem exhausted_call (layout : Layout) (s : State) (attr : Attr) (va pa : Nat) (used : 8 ≤ s.runtimeIdx)
    (accepted : va &&& (granule - 1) = 0 ∧ pa &&& (granule - 1) = 0 ∧ va >>> 48 = 0xFFFF)
    (trunk : readTable s.mem s.ttbr1 (vaL0i va) &&& 0b11 = 0b11)
    (absent : s.Invalid (readTable s.mem s.ttbr1 (vaL0i va) &&& 0x0000FFFFFFFFC000) (vaL1i va)) :
    s.ioremap layout attr va pa =
      (.error .outOfTables, { s with runtimeIdx := (s.runtimeIdx + 1) % 2 ^ 64 }) := by
  obtain ⟨va_aligned, pa_aligned, high⟩ := accepted
  have full : s.linkTable layout (readTable s.mem s.ttbr1 (vaL0i va) &&& 0x0000FFFFFFFFC000) (vaL1i va) =
      (.error .outOfTables, { s with runtimeIdx := (s.runtimeIdx + 1) % 2 ^ 64 }) := by
    rw [State.linkTable, State.allocRuntimeTable, if_pos used]
  have refused : s.ensureTable layout (readTable s.mem s.ttbr1 (vaL0i va) &&& 0x0000FFFFFFFFC000) (vaL1i va) =
      (.error .outOfTables, { s with runtimeIdx := (s.runtimeIdx + 1) % 2 ^ 64 }) := by
    rw [← full]
    unfold State.ensureTable
    dsimp only
    rcases absent with kind | kind
    all_goals
      rw [kind]
      rfl
  rw [State.ioremap, if_neg (by rw [va_aligned, pa_aligned]; simp), if_neg (by rw [high]; simp)]
  dsimp only
  rw [if_neg (by rw [trunk]; simp), refused]

theorem exhausted_calls (layout : Layout) (s : State) (call : IoremapCall) (used : 8 ≤ s.runtimeIdx) (n : Nat)
    (more : s.runtimeIdx + n ≤ 2 ^ 64)
    (accepted : call.va &&& (granule - 1) = 0 ∧ call.pa &&& (granule - 1) = 0 ∧ call.va >>> 48 = 0xFFFF)
    (trunk : readTable s.mem s.ttbr1 (vaL0i call.va) &&& 0b11 = 0b11)
    (absent : s.Invalid (readTable s.mem s.ttbr1 (vaL0i call.va) &&& 0x0000FFFFFFFFC000) (vaL1i call.va)) :
    Run.exec (IoremapCall.next layout) s (List.replicate n call) =
      { s with runtimeIdx := if n = 0 then s.runtimeIdx else (s.runtimeIdx + n) % 2 ^ 64 } := by
  induction n generalizing s with
  | zero => rfl
  | succ n ih =>
      have step : call.next layout s = { s with runtimeIdx := (s.runtimeIdx + 1) % 2 ^ 64 } := by
        rw [IoremapCall.next, call.run_eq, exhausted_call layout s call.attr call.va call.pa used accepted trunk absent]
      rw [List.replicate_succ, Run.exec_cons, step, if_neg (Nat.succ_ne_zero n)]
      by_cases last : n = 0
      · subst last
        rfl
      · have moved : (s.runtimeIdx + 1) % 2 ^ 64 = s.runtimeIdx + 1 := Nat.mod_eq_of_lt (by omega)
        rw [moved, ih { s with runtimeIdx := s.runtimeIdx + 1 } (by dsimp only; omega) (by dsimp only; omega) trunk absent,
          if_neg last]
        dsimp only
        rw [Nat.add_assoc, Nat.add_comm 1 n]

-- Four mappings use up the pool, 2^64 - 8 that fail bring RUNTIME_IDX back to
-- zero, and the next mapping is given the table in use below l1[1].
def linearCall (pa : Nat) : IoremapCall := .device (physToVirt pa) pa

def fillPool : List IoremapCall :=
  [linearCall (1 <<< 36), linearCall (2 <<< 36), linearCall (3 <<< 36), linearCall (4 <<< 36)]

def beyondPool : IoremapCall := linearCall (5 <<< 36)

def againCall : IoremapCall := linearCall (1 <<< 36 ||| 1 <<< 25 ||| 2 <<< 14)

def startOn (mem : Memory) : State :=
  (opalMmuEnable (sampleLayout.table 0) (bootMemory sampleLayout mem)).condemnLowHalf sampleLayout

def filledOn (mem : Memory) : State := Run.exec (IoremapCall.next sampleLayout) (startOn mem) fillPool

def sampleRelinked : State := againCall.next sampleLayout { filledOn (fun _ => 0) with runtimeIdx := 0 }

theorem sample_relinked (mem : Memory) (last : IoremapCall)
    (filled : (filledOn mem).runtimeIdx = 8 ∧
      readTable (filledOn mem).mem (filledOn mem).ttbr1 (vaL0i beyondPool.va) &&& 0b11 = 0b11 ∧
      readTable (filledOn mem).mem (readTable (filledOn mem).mem (filledOn mem).ttbr1 (vaL0i beyondPool.va) &&&
        0x0000FFFFFFFFC000) (vaL1i beyondPool.va) &&& 0b11 = 0) :
    Run.exec (IoremapCall.next sampleLayout) (startOn mem) (fillPool ++ List.replicate (2 ^ 64 - 8) beyondPool ++ [last]) =
      last.next sampleLayout { filledOn mem with runtimeIdx := 0 } := by
  obtain ⟨used, trunk, absent⟩ := filled
  have many := exhausted_calls sampleLayout (filledOn mem) beyondPool (by omega) (2 ^ 64 - 8) (by omega) (by decide) trunk
    (.inl absent)
  rw [if_neg (by decide), used] at many
  rw [Run.exec_append, Run.exec_append]
  change Run.exec _ (Run.exec _ (filledOn mem) _) _ = _
  rw [many]
  rfl

theorem runtime_table_linked_twice :
    ∃ root built, opalBuildTables sampleLayout 0 0x100000 (fun _ => 0) = some (root, built) ∧
      ¬ Run.Always (IoremapCall.next sampleLayout) (IoremapCall.LinkedOnce sampleLayout)
        ((opalMmuEnable root built).condemnLowHalf sampleLayout)
        (fillPool ++ List.replicate (2 ^ 64 - 8) beyondPool ++ [againCall]) := by
  refine ⟨_, _, build_tables sampleLayout 0x100000 (fun _ => 0) (by decide), fun always => ?_⟩
  have last := Run.always_last _ _ _ _ always
  change IoremapCall.LinkedOnce sampleLayout (Run.exec _ (startOn fun _ => 0) _) at last
  rw [sample_relinked _ _ (by decide +kernel)] at last
  change IoremapCall.LinkedOnce sampleLayout sampleRelinked at last
  have entries : sampleRelinked.ttbr1 = sampleLayout.table 0 ∧
      entry sampleRelinked.mem 0 (sampleLayout.table 0) 0 = .table (sampleLayout.table 1) ∧
      entry sampleRelinked.mem 1 (sampleLayout.table 1) 1 = .table (sampleLayout.runtime 0) ∧
      entry sampleRelinked.mem 2 (sampleLayout.runtime 0) 1 = .table (sampleLayout.runtime 0) := by decide +kernel
  obtain ⟨root, first, second, third⟩ := entries
  have l1 : TableTree.Hangs (entry sampleRelinked.mem) sampleRelinked.ttbr1 [0] (sampleLayout.table 1) :=
    .child [] _ 0 _ .root (root ▸ first)
  have l2 := TableTree.Hangs.child [0] _ 1 _ l1 second
  have twice := last 0 _ _ 1 1 (by decide) ⟨[0], l1, second⟩ ⟨[0, 1], l2, third⟩
  exact absurd twice.1 (by decide)

end Mmu

end Opal
