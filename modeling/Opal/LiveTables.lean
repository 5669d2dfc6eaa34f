import Opal.BreakBeforeMake
import Opal.Ioremap

set_option autoImplicit false

namespace Opal

namespace Mmu

open BreakBeforeMake

def Valid (desc : Nat) : Prop := desc &&& 1 ≠ 0

instance : DecidablePred Valid := fun desc => inferInstanceAs (Decidable (desc &&& 1 ≠ 0))

namespace State

variable (layout : Layout) (s : State)

-- The descriptors that a call writes and its TLBI, in order.
def linkActions (tablePa idx : Nat) : List (BreakBeforeMake.Action Nat Nat) :=
  match s.allocRuntimeTable layout with
  | (none, _) => []
  | (some nextPa, _) => [.write (tablePa + idx * 8) (tableDesc nextPa)]

def ensureActions (tablePa idx : Nat) : List (BreakBeforeMake.Action Nat Nat) :=
  match readTable s.mem tablePa idx &&& 0b11 with
  | 0b11 => []
  | 0b01 => []
  | _ => s.linkActions layout tablePa idx

def ioremapActions (attr : Attr) (va pa : Nat) : List (BreakBeforeMake.Action Nat Nat) :=
  if va &&& (granule - 1) ≠ 0 ∨ pa &&& (granule - 1) ≠ 0 then []
  else if va >>> 48 ≠ 0xFFFF then []
  else
    let l0Desc := readTable s.mem s.ttbr1 (vaL0i va)
    if l0Desc &&& 0b11 ≠ 0b11 then []
    else
      let l1Pa := l0Desc &&& 0x0000FFFFFFFFC000
      let first := s.ensureActions layout l1Pa (vaL1i va)
      match s.ensureTable layout l1Pa (vaL1i va) with
      | (.error _, _) => first
      | (.ok l2Pa, s) =>
          let second := s.ensureActions layout l2Pa (vaL2i va)
          match s.ensureTable layout l2Pa (vaL2i va) with
          | (.error _, _) => first ++ second
          | (.ok l3Pa, _) => first ++ second ++ [.write (l3Pa + vaL3i va * 8) (pageDesc pa attr), .flush]

-- No page is mapped at va but the one that the call is to map.
def Vacant (attr : Attr) (va pa : Nat) : Prop :=
  va &&& (granule - 1) = 0 → pa &&& (granule - 1) = 0 → va >>> 48 = 0xFFFF →
    ∀ softPa desc, s.walkWith (fun _ => true) va = .leaf softPa desc → desc &&& 0b11 = 0b11 → desc = pageDesc pa attr

end State

theorem valid_iff (desc : Nat) : Valid desc ↔ desc &&& 0b11 = 0b01 ∨ desc &&& 0b11 = 0b11 := by
  have one : desc &&& 1 = desc % 2 := Nat.and_two_pow_sub_one_eq_mod desc 1
  have two : desc &&& 0b11 = desc % 4 := Nat.and_two_pow_sub_one_eq_mod desc 2
  rw [Valid, one, two]
  omega

theorem invalid_iff (desc : Nat) : ¬ Valid desc ↔ desc &&& 0b11 = 0 ∨ desc &&& 0b11 = 2 := by
  have bound := kind_lt desc
  rw [valid_iff]
  omega

section
variable (layout : Layout) (s : State)

theorem table_desc_valid (k : Nat) : Valid (tableDesc (layout.table k)) :=
  (valid_iff _).mpr (.inr (table_desc_kind _ (table_aligned layout k)))

-- What a step writes are table and page descriptors.
def Adds (mem mem' : Memory) : Prop := ∀ a, mem' a = mem a ∨ mem' a &&& 0b11 = 0b11

theorem Adds.trans {first second third : Memory} (early : Adds first second) (late : Adds second third) : Adds first third := by
  intro a
  rcases late a with same | written
  · rw [same]
    exact early a
  · exact .inr written

theorem adds_write (mem : Memory) (t i desc : Nat) (kind : desc &&& 0b11 = 0b11) : Adds mem (writeTable mem t i desc) := by
  intro a
  rw [writeTable, store, Function.update_apply]
  split_ifs
  · exact .inr kind
  · exact .inl rfl

-- What the actions of a step amount to.
structure Performs (mem : Memory) (actions : List (BreakBeforeMake.Action Nat Nat)) (mem' : Memory) : Prop where
  disciplined : Disciplined Valid (.quiet mem) actions
  leaves : Run.exec (after Valid) (.quiet mem) actions = .quiet mem'
  adds : Adds mem mem'

theorem performs_nothing (mem : Memory) : Performs mem [] mem := ⟨trivial, rfl, fun _ => .inl rfl⟩

theorem Performs.append {mem mem' mem'' : Memory} {first second : List (BreakBeforeMake.Action Nat Nat)}
    (early : Performs mem first mem') (late : Performs mem' second mem'') : Performs mem (first ++ second) mem'' := by
  refine ⟨(disciplined_append Valid _ first second).mpr ⟨early.disciplined, ?_⟩, ?_, early.adds.trans late.adds⟩
  · rw [early.leaves]
    exact late.disciplined
  · rw [Run.exec_append, early.leaves]
    exact late.leaves

theorem link_performs (tablePa idx : Nat) (invalid : s.Invalid tablePa idx) :
    Performs s.mem (s.linkActions layout tablePa idx) (s.linkTable layout tablePa idx).2.mem := by
  unfold State.linkTable State.linkActions State.allocRuntimeTable
  by_cases used : s.runtimeIdx ≥ 8
  · rw [if_pos used]
    exact performs_nothing s.mem
  · rw [if_neg used]
    have made := table_desc_valid layout (6 + s.runtimeIdx)
    refine ⟨⟨fun _ held => absurd held ((invalid_iff _).mpr invalid), trivial⟩, quiet_write Valid s.mem _ _ made, ?_⟩
    exact adds_write s.mem tablePa idx _ (table_desc_kind _ (table_aligned layout (6 + s.runtimeIdx)))

theorem ensure_performs (tablePa idx : Nat) :
    Performs s.mem (s.ensureActions layout tablePa idx) (s.ensureTable layout tablePa idx).2.mem := by
  have links := link_performs layout s tablePa idx
  have bound := kind_lt (readTable s.mem tablePa idx)
  unfold State.ensureActions State.ensureTable
  unfold State.Invalid at links
  dsimp only
  generalize readTable s.mem tablePa idx &&& 0b11 = k at bound links ⊢
  interval_cases k
  · exact links (.inl rfl)
  · exact performs_nothing s.mem
  · exact links (.inr rfl)
  · exact performs_nothing s.mem

theorem table_kind (mem : Memory) (level t i u : Nat) (above : level < 3) (linked : entry mem level t i = .table u) :
    readTable mem t i &&& 0b11 = 0b11 := by
  rw [entry] at linked
  split_ifs at linked
  have bound := kind_lt (mem (t + i * 8))
  unfold decode at linked
  change mem (t + i * 8) &&& 0b11 = 0b11
  generalize mem (t + i * 8) &&& 0b11 = k at bound linked
  interval_cases k <;> interval_cases level <;> first | rfl | cases linked

theorem ensure_refused (tablePa idx level : Nat) (above : level < 3) (e : IoremapError) (s' : State)
    (refused : s.ensureTable layout tablePa idx = (.error e, s')) (u : Nat) : entry s.mem level tablePa idx ≠ .table u := by
  intro linked
  rw [State.ensureTable, table_kind s.mem level tablePa idx u above linked] at refused
  cases refused

end

theorem no_page_below (mem : Memory) (level t i j : Nat) (rest : List Nat) (no_table : ∀ u, entry mem level t i ≠ .table u)
    (desc : Nat) : TableTree.lookup (entry mem) level t (i :: j :: rest) ≠ some (desc, []) := by
  intro found
  rw [TableTree.lookup] at found
  cases here : entry mem level t i with
  | absent =>
      rw [here] at found
      cases found
  | leaf x =>
      rw [here] at found
      cases found
  | table u => exact no_table u here

theorem lookup_kind (mem : Memory) (desc : Nat) (left rest : List Nat) (level t : Nat) (shape : level + rest.length = 4)
    (found : TableTree.lookup (entry mem) level t rest = some (desc, left)) : desc &&& 0b11 = 0b11 ↔ left = [] := by
  induction rest generalizing level t with
  | nil => cases found
  | cons i rest ih =>
      rw [List.length_cons] at shape
      rw [TableTree.lookup] at found
      cases here : entry mem level t i with
      | absent =>
          rw [here] at found
          cases found
      | table u =>
          rw [here] at found
          exact ih (level + 1) u (by omega) found
      | leaf x =>
          rw [here] at found
          obtain ⟨rfl, rfl⟩ := Prod.mk.inj (Option.some.inj found)
          rw [entry] at here
          split_ifs at here
          have bound := kind_lt (mem (t + i * 8))
          have under : level < 4 := by omega
          unfold decode at here
          generalize word : mem (t + i * 8) = w at bound here
          generalize kind : w &&& 0b11 = k at bound here
          interval_cases k <;> interval_cases level <;> cases here
          · rw [kind]
            exact ⟨fun no => absurd no (by decide), fun no => by rw [no] at shape; cases shape⟩
          · rw [kind]
            exact ⟨fun _ => List.length_eq_zero_iff.mp (by omega), fun _ => rfl⟩

section
variable {layout : Layout} {s : State} {place : Nat → Option (List Nat)}

theorem Wired.leaf_iff (wired : Wired layout s place) (va desc : Nat) (high : va >>> 48 = 0xFFFF) :
    (∃ softPa, s.walkWith (fun _ => true) va = .leaf softPa desc) ↔
      ∃ left, TableTree.lookup (entry s.mem) 0 (layout.table 0) (indices va) = some (desc, left) := by
  have top : s.ttbr1 &&& 0x0000FFFFFFFFFFFE = layout.table 0 := by
    rw [wired.root]
    exact root_kept _ (table_small layout 0 (by omega)) (table_aligned layout 0)
  have finds := walk_finds (fun _ => true) s.mem va (fun _ _ => True) (fun _ _ _ _ _ _ => trivial) (fun _ _ _ => rfl) (indices va)
    0 (layout.table 0) rfl (by omega) (indices_small va) trivial
  rw [State.walkWith, if_pos high, top]
  cases found : TableTree.lookup (entry s.mem) 0 (layout.table 0) (indices va) with
  | none =>
      rw [found] at finds
      obtain ⟨last, word, ends⟩ := finds
      rw [ends]
      constructor
      · rintro ⟨_, no⟩
        cases no
      · rintro ⟨_, no⟩
        cases no
  | some hit =>
      rw [found] at finds
      rw [finds]
      constructor
      · rintro ⟨_, same⟩
        cases same
        exact ⟨hit.2, rfl⟩
      · rintro ⟨left, same⟩
        cases same
        exact ⟨_, rfl⟩

theorem Wired.vacant_iff (wired : Wired layout s place) (attr : Attr) (va pa : Nat) (high : va >>> 48 = 0xFFFF)
    (va_aligned : va &&& (granule - 1) = 0) (pa_aligned : pa &&& (granule - 1) = 0) :
    s.Vacant attr va pa ↔
      ∀ desc, TableTree.lookup (entry s.mem) 0 (layout.table 0) (indices va) = some (desc, []) → desc = pageDesc pa attr := by
  constructor
  · intro vacant desc found
    obtain ⟨softPa, ends⟩ := (wired.leaf_iff va desc high).mpr ⟨[], found⟩
    exact vacant va_aligned pa_aligned high softPa desc ends ((lookup_kind s.mem desc [] _ 0 _ rfl found).mpr rfl)
  · intro only _ _ _ softPa desc ends kind
    obtain ⟨left, found⟩ := (wired.leaf_iff va desc high).mp ⟨softPa, ends⟩
    obtain rfl := (lookup_kind s.mem desc left _ 0 _ rfl found).mp kind
    exact only desc found

-- No call writes into the root.
def SameRoot (layout : Layout) (mem mem' : Memory) : Prop :=
  ∀ i, i < 2048 → mem' (layout.table 0 + i * 8) = mem (layout.table 0 + i * 8)

theorem Wired.write_root (wired : Wired layout s place) (t i desc : Nat) (path : List Nat) (hangs : place t = some path)
    (below_ : path ≠ []) (inside : i < 2048) : SameRoot layout s.mem (writeTable s.mem t i desc) := by
  intro j j_small
  obtain ⟨k, _, rfl, _⟩ := wired.hung t path hangs
  have apart : k ≠ 0 := by
    rintro rfl
    rw [(wired.rooted.root _).mpr rfl] at hangs
    exact below_ (Option.some.inj hangs).symm
  rw [writeTable, store, Function.update_of_ne (by unfold Layout.table tableAt; omega)]

theorem Wired.ensure_root (wired : Wired layout s place) (t i : Nat) (path : List Nat) (hangs : place t = some path)
    (below_ : path ≠ []) (inside : i < 2048) : SameRoot layout s.mem (s.ensureTable layout t i).2.mem := by
  have links : SameRoot layout s.mem (s.linkTable layout t i).2.mem := by
    unfold State.linkTable State.allocRuntimeTable
    by_cases used : s.runtimeIdx ≥ 8
    · rw [if_pos used]
      exact fun _ _ => rfl
    · rw [if_neg used]
      exact wired.write_root t i _ path hangs below_ inside
  have bound := kind_lt (readTable s.mem t i)
  unfold State.ensureTable
  dsimp only
  generalize readTable s.mem t i &&& 0b11 = k at bound ⊢
  interval_cases k
  · exact links
  · exact fun _ _ => rfl
  · exact links
  · exact fun _ _ => rfl

theorem SameRoot.trans {mem mem' mem'' : Memory} (early : SameRoot layout mem mem') (late : SameRoot layout mem' mem'') :
    SameRoot layout mem mem'' := fun i inside => (late i inside).trans (early i inside)

-- The call has got to the level 3 table and has linked what was missing.
structure Arrives (layout : Layout) (s : State) (place : Nat → Option (List Nat)) (attr : Attr) (va pa : Nat) (s' : State)
    (place' : Nat → Option (List Nat)) (l3 : Nat) (linked : List (BreakBeforeMake.Action Nat Nat)) : Prop where
  grows : Grows layout s s' place place'
  hangs : place' l3 = some [vaL0i va, vaL1i va, vaL2i va]
  performs : Performs s.mem linked s'.mem
  root : SameRoot layout s.mem s'.mem
  actions : s.ioremapActions layout attr va pa = linked ++ [.write (l3 + vaL3i va * 8) (pageDesc pa attr), .flush]
  ends : s.ioremap layout attr va pa = (.ok (), { s' with mem := writeTable s'.mem l3 (vaL3i va) (pageDesc pa attr) })

-- The call has given up: there is no page to replace.
structure GivesUp (layout : Layout) (s : State) (place : Nat → Option (List Nat)) (attr : Attr) (va pa : Nat) : Prop where
  grows : ∃ place', Grows layout s (s.ioremap layout attr va pa).2 place place'
  performs : Performs s.mem (s.ioremapActions layout attr va pa) (s.ioremap layout attr va pa).2.mem
  root : SameRoot layout s.mem (s.ioremap layout attr va pa).2.mem
  pageless : ∀ desc, TableTree.lookup (entry s.mem) 0 (layout.table 0) (indices va) ≠ some (desc, [])

theorem ioremap_follows (wired : Wired layout s place) (attr : Attr) (va pa : Nat) (fits : ¬ s.Wraps va pa)
    (high : va >>> 48 = 0xFFFF) (va_aligned : va &&& (granule - 1) = 0) (pa_aligned : pa &&& (granule - 1) = 0) :
    GivesUp layout s place attr va pa ∨
      ∃ s' place' l3 linked, Arrives layout s place attr va pa s' place' l3 linked := by
  have top : place (layout.table 0) = some [] := (wired.rooted.root _).mpr rfl
  have small : ∀ i ∈ [vaL0i va, vaL1i va, vaL2i va, vaL3i va], i < 2048 := indices_small va
  rw [List.forall_mem_cons, List.forall_mem_cons, List.forall_mem_cons] at small
  obtain ⟨i0_small, i1_small, i2_small, _⟩ := small
  have accepted : ¬ (va &&& (granule - 1) ≠ 0 ∨ pa &&& (granule - 1) ≠ 0) := fun no => by
    rcases no with no | no
    · exact no va_aligned
    · exact no pa_aligned
  by_cases broken : readTable s.mem s.ttbr1 (vaL0i va) &&& 0b11 ≠ 0b11
  · have stops : s.ioremap layout attr va pa = (.error .blockInPath, s) := by
      rw [State.ioremap, if_neg accepted, if_neg (not_not.mpr high)]
      dsimp only
      rw [if_pos broken]
    have silent : s.ioremapActions layout attr va pa = [] := by
      rw [State.ioremapActions, if_neg accepted, if_neg (not_not.mpr high)]
      dsimp only
      rw [if_pos broken]
    refine .inl ⟨⟨place, ?_⟩, ?_, ?_, no_page_below s.mem 0 _ _ _ _ fun u linked => broken ?_⟩
    · rw [stops]
      exact wired.grows
    · rw [stops, silent]
      exact performs_nothing s.mem
    · rw [stops]
      exact fun _ _ => rfl
    · rw [wired.root]
      exact table_kind s.mem 0 _ _ u (by decide) linked
  · generalize l1_at : readTable s.mem s.ttbr1 (vaL0i va) &&& 0x0000FFFFFFFFC000 = l1
    have at_l1 : place l1 = some [vaL0i va] := by
      refine wired.rooted.links _ [] (vaL0i va) l1 top ?_
      rw [entry, if_pos i0_small, ← l1_at, wired.root]
      exact decode_descend 0 _ (by omega) (wired.root ▸ not_not.mp broken)
    have below_l1 : TableTree.lookup (entry s.mem) 0 (layout.table 0) (indices va) =
        TableTree.lookup (entry s.mem) 1 l1 [vaL1i va, vaL2i va, vaL3i va] :=
      TableTree.lookup_reaches wired.rooted [vaL0i va] _ l1 at_l1
    have fits1 : s.Invalid l1 (vaL1i va) → s.runtimeIdx ≠ 2 ^ 64 - 1 := fun invalid last =>
      fits ⟨last, va_aligned, pa_aligned, high, not_not.mp broken, .inl (l1_at ▸ invalid)⟩
    have fits2 : readTable s.mem l1 (vaL1i va) &&& 0b11 = 0b11 →
        s.Invalid (readTable s.mem l1 (vaL1i va) &&& 0x0000FFFFFFFFC000) (vaL2i va) →
        s.runtimeIdx ≠ 2 ^ 64 - 1 := fun present invalid last =>
      fits ⟨last, va_aligned, pa_aligned, high, not_not.mp broken, .inr (l1_at ▸ ⟨present, invalid⟩)⟩
    obtain ⟨place1, grows1, found1⟩ := ensure_step wired l1 (vaL1i va) _ at_l1 (by simp) i1_small fits1
    have performs1 := ensure_performs layout s l1 (vaL1i va)
    have root1 := wired.ensure_root l1 (vaL1i va) _ at_l1 (by simp) i1_small
    rcases ensured1 : s.ensureTable layout l1 (vaL1i va) with ⟨e | l2, s1⟩
    · have stops : s.ioremap layout attr va pa = (.error e, s1) := by
        rw [State.ioremap, if_neg accepted, if_neg (not_not.mpr high)]
        dsimp only
        rw [if_neg broken, l1_at, ensured1]
      have does : s.ioremapActions layout attr va pa = s.ensureActions layout l1 (vaL1i va) := by
        rw [State.ioremapActions, if_neg accepted, if_neg (not_not.mpr high)]
        dsimp only
        rw [if_neg broken, l1_at, ensured1]
      rw [ensured1] at grows1 performs1 root1
      refine .inl ⟨⟨place1, ?_⟩, ?_, ?_, ?_⟩
      · rw [stops]
        exact grows1
      · rw [stops, does]
        exact performs1
      · rw [stops]
        exact root1
      · rw [below_l1]
        exact no_page_below s.mem 1 _ _ _ _ (ensure_refused layout s l1 (vaL1i va) 1 (by decide) e s1 ensured1)
    · rw [ensured1] at grows1 found1 performs1 root1
      obtain ⟨at_l2, origin⟩ := found1 l2 rfl
      have below_l2 : TableTree.lookup (entry s.mem) 0 (layout.table 0) (indices va) =
          TableTree.lookup (entry s1.mem) 2 l2 [vaL2i va, vaL3i va] :=
        (grows1.same (indices va)).symm.trans
          (TableTree.lookup_reaches grows1.wired.rooted [vaL0i va, vaL1i va] [vaL2i va, vaL3i va] l2 at_l2)
      have room : s1.Invalid l2 (vaL2i va) → s1.runtimeIdx ≠ 2 ^ 64 - 1 := by
        intro invalid
        rcases origin with few | ⟨same, present, l2_at⟩
        · dsimp only at few
          omega
        · dsimp only at same
          subst same l2_at
          exact fits2 present invalid
      obtain ⟨place2, grows2, found2⟩ := ensure_step grows1.wired l2 (vaL2i va) _ at_l2 (by simp) i2_small room
      have performs2 := ensure_performs layout s1 l2 (vaL2i va)
      have root2 := root1.trans (grows1.wired.ensure_root l2 (vaL2i va) _ at_l2 (by simp) i2_small)
      rcases ensured2 : s1.ensureTable layout l2 (vaL2i va) with ⟨e | l3, s2⟩
      · have stops : s.ioremap layout attr va pa = (.error e, s2) := by
          rw [State.ioremap, if_neg accepted, if_neg (not_not.mpr high)]
          dsimp only
          rw [if_neg broken, l1_at, ensured1]
          dsimp only
          rw [ensured2]
        have does : s.ioremapActions layout attr va pa =
            s.ensureActions layout l1 (vaL1i va) ++ s1.ensureActions layout l2 (vaL2i va) := by
          rw [State.ioremapActions, if_neg accepted, if_neg (not_not.mpr high)]
          dsimp only
          rw [if_neg broken, l1_at, ensured1]
          dsimp only
          rw [ensured2]
        rw [ensured2] at grows2 performs2 root2
        refine .inl ⟨⟨place2, ?_⟩, ?_, ?_, ?_⟩
        · rw [stops]
          exact grows1.trans grows2
        · rw [stops, does]
          exact performs1.append performs2
        · rw [stops]
          exact root2
        · rw [below_l2]
          exact no_page_below s1.mem 2 _ _ _ _ (ensure_refused layout s1 l2 (vaL2i va) 2 (by decide) e s2 ensured2)
      · rw [ensured2] at grows2 found2 performs2 root2
        refine .inr ⟨s2, place2, l3, _, grows1.trans grows2, (found2 l3 rfl).1, performs1.append performs2, root2, ?_, ?_⟩
        · rw [State.ioremapActions, if_neg accepted, if_neg (not_not.mpr high)]
          dsimp only
          rw [if_neg broken, l1_at, ensured1]
          dsimp only
          rw [ensured2]
        · rw [State.ioremap, if_neg accepted, if_neg (not_not.mpr high)]
          dsimp only
          rw [if_neg broken, l1_at, ensured1]
          dsimp only
          rw [ensured2]

-- Blocks are in the boot tree's level 2 table alone.
structure Paged (layout : Layout) (s : State) (place : Nat → Option (List Nat)) : Prop where
  wired : Wired layout s place
  trunk : place (layout.table 2) = some [0, 0]
  pages : ∀ k i, k < 14 → k ≠ 2 → i < 2048 → s.mem (layout.table k + i * 8) &&& 0b11 ≠ 0b01

theorem adds_pages {mem mem' : Memory} (adds : Adds mem mem') (a : Nat) (before : mem a &&& 0b11 ≠ 0b01) :
    mem' a &&& 0b11 ≠ 0b01 := by
  rcases adds a with same | written
  · rw [same]
    exact before
  · rw [written]
    decide

theorem Paged.adds (paged : Paged layout s place) {s' : State} {place' : Nat → Option (List Nat)} (wired' : Wired layout s' place')
    (keeps : ∀ t path, place t = some path → place' t = some path) (adds : Adds s.mem s'.mem) : Paged layout s' place' :=
  ⟨wired', keeps _ _ paged.trunk, fun k i within other inside => adds_pages adds _ (paged.pages k i within other inside)⟩

theorem Paged.bottom (paged : Paged layout s place) (l3 i : Nat) (path : List Nat) (hangs : place l3 = some path)
    (deep : path.length = 3) (inside : i < 2048) : Valid (s.mem (l3 + i * 8)) ↔ s.mem (l3 + i * 8) &&& 0b11 = 0b11 := by
  obtain ⟨k, within, rfl, _⟩ := paged.wired.hung l3 path hangs
  have other : k ≠ 2 := by
    rintro rfl
    rw [paged.trunk] at hangs
    rw [← Option.some.inj hangs] at deep
    cases deep
  have page := paged.pages k i within other inside
  rw [valid_iff]
  exact ⟨fun either => either.resolve_left page, .inr⟩

theorem decode_leaf (desc x : Nat) : decode 3 desc = .leaf x ↔ desc = x ∧ desc &&& 0b11 = 0b11 := by
  have bound := kind_lt desc
  unfold decode
  generalize desc &&& 0b11 = k at bound ⊢
  interval_cases k <;> simp

theorem Arrives.disciplined_iff (paged : Paged layout s place) (attr : Attr) (va pa : Nat) (high : va >>> 48 = 0xFFFF)
    (va_aligned : va &&& (granule - 1) = 0) (pa_aligned : pa &&& (granule - 1) = 0) {s' : State}
    {place' : Nat → Option (List Nat)} {l3 : Nat} {linked : List (BreakBeforeMake.Action Nat Nat)}
    (arrives : Arrives layout s place attr va pa s' place' l3 linked) :
    Disciplined Valid (.quiet s.mem) (s.ioremapActions layout attr va pa) ↔ s.Vacant attr va pa := by
  have grows := arrives.grows
  have paged' := paged.adds grows.wired grows.keeps arrives.performs.adds
  have inside : vaL3i va < 2048 := indices_small va _ (by simp [indices, vaL3i])
  have aligned : pa % 2 ^ 14 = 0 := (Nat.and_two_pow_sub_one_eq_mod pa 14).symm.trans pa_aligned
  have made : Valid (pageDesc pa attr) := (valid_iff _).mpr (.inr (page_desc_kind pa attr aligned))
  have here : TableTree.lookup (entry s.mem) 0 (layout.table 0) (indices va) =
      TableTree.lookup (entry s'.mem) 3 l3 [vaL3i va] :=
    (grows.same (indices va)).symm.trans (TableTree.lookup_reaches grows.wired.rooted _ [vaL3i va] l3 arrives.hangs)
  have page : ∀ desc, TableTree.lookup (entry s'.mem) 3 l3 [vaL3i va] = some (desc, []) ↔
      s'.mem (l3 + vaL3i va * 8) = desc ∧ s'.mem (l3 + vaL3i va * 8) &&& 0b11 = 0b11 := by
    intro desc
    rw [← decode_leaf, TableTree.lookup, entry, if_pos inside]
    cases decode 3 (s'.mem (l3 + vaL3i va * 8)) <;> simp [TableTree.lookup]
  rw [arrives.actions, disciplined_append, arrives.performs.leaves, make_allowed Valid s'.mem _ _ made,
    paged.wired.vacant_iff attr va pa high va_aligned pa_aligned, here, paged'.bottom l3 _ _ arrives.hangs rfl inside]
  constructor
  · rintro ⟨_, same⟩ desc found
    obtain ⟨word, kind⟩ := (page desc).mp found
    rw [← word, same kind]
  · intro only
    exact ⟨arrives.performs.disciplined, fun kind => (only _ ((page _).mpr ⟨rfl, kind⟩)).symm⟩

end

namespace IoremapCall

def actions (layout : Layout) (s : State) (call : IoremapCall) : List (BreakBeforeMake.Action Nat Nat) :=
  s.ioremapActions layout call.attr call.va call.pa

-- No valid descriptor takes the place of another without a break between them.
def BreaksFirst (layout : Layout) (s : State) (call : IoremapCall) : Prop :=
  Disciplined Valid (.quiet s.mem) (call.actions layout s)

-- The actions are those of the call.
def Traced (layout : Layout) (s : State) (call : IoremapCall) : Prop :=
  Run.exec (after Valid) (.quiet s.mem) (call.actions layout s) = .quiet (call.next layout s).mem

def Vacant (s : State) (call : IoremapCall) : Prop := s.Vacant call.attr call.va call.pa

end IoremapCall

section
variable {layout : Layout} {s : State} {place : Nat → Option (List Nat)}

-- What one call does, from any tables that calls have left.
structure Called (layout : Layout) (s : State) (call : IoremapCall) : Prop where
  paged : ∃ place, Paged layout (call.next layout s) place
  adds : Adds s.mem (call.next layout s).mem
  root : SameRoot layout s.mem (call.next layout s).mem
  traced : call.Traced layout s
  exact_ : call.BreaksFirst layout s ↔ call.Vacant s

theorem Paged.call (paged : Paged layout s place) (call : IoremapCall) (fits : ¬ s.Wraps call.va call.pa) :
    Called layout s call := by
  have ran : call.next layout s = (s.ioremap layout call.attr call.va call.pa).2 := by
    rw [IoremapCall.next, call.run_eq]
  suffices whole : (∃ place, Paged layout (s.ioremap layout call.attr call.va call.pa).2 place) ∧
      Adds s.mem (s.ioremap layout call.attr call.va call.pa).2.mem ∧
      SameRoot layout s.mem (s.ioremap layout call.attr call.va call.pa).2.mem ∧
      Run.exec (after Valid) (.quiet s.mem) (s.ioremapActions layout call.attr call.va call.pa) =
        .quiet (s.ioremap layout call.attr call.va call.pa).2.mem ∧
      (Disciplined Valid (.quiet s.mem) (s.ioremapActions layout call.attr call.va call.pa) ↔
        s.Vacant call.attr call.va call.pa) by
    rw [← ran] at whole
    exact ⟨whole.1, whole.2.1, whole.2.2.1, whole.2.2.2.1, whole.2.2.2.2⟩
  generalize call.attr = attr at fits ⊢
  generalize call.va = va at fits ⊢
  generalize call.pa = pa at fits ⊢
  by_cases misaligned : va &&& (granule - 1) ≠ 0 ∨ pa &&& (granule - 1) ≠ 0
  · rw [State.ioremap, State.ioremapActions, if_pos misaligned, if_pos misaligned]
    refine ⟨⟨place, paged⟩, fun _ => .inl rfl, fun _ _ => rfl, rfl, fun _ va_aligned pa_aligned => ?_, fun _ => trivial⟩
    rcases misaligned with no | no
    · exact absurd va_aligned no
    · exact absurd pa_aligned no
  by_cases low : va >>> 48 ≠ 0xFFFF
  · rw [State.ioremap, State.ioremapActions, if_neg misaligned, if_neg misaligned, if_pos low, if_pos low]
    exact ⟨⟨place, paged⟩, fun _ => .inl rfl, fun _ _ => rfl, rfl, fun _ _ _ high => absurd high low, fun _ => trivial⟩
  rw [not_or, not_not, not_not] at misaligned
  rw [not_not] at low
  obtain ⟨va_aligned, pa_aligned⟩ := misaligned
  rcases ioremap_follows paged.wired attr va pa fits low va_aligned pa_aligned with gives_up | ⟨s', place', l3, linked, arrives⟩
  · obtain ⟨place', grows⟩ := gives_up.grows
    have adds := gives_up.performs.adds
    refine ⟨⟨place', paged.adds grows.wired grows.keeps adds⟩, adds, gives_up.root, gives_up.performs.leaves, fun _ => ?_,
      fun _ => gives_up.performs.disciplined⟩
    rw [paged.wired.vacant_iff attr va pa low va_aligned pa_aligned]
    exact fun desc found => absurd found (gives_up.pageless desc)
  · have grows := arrives.grows
    have inside : vaL3i va < 2048 := indices_small va _ (by simp [indices, vaL3i])
    have aligned : pa % 2 ^ 14 = 0 := (Nat.and_two_pow_sub_one_eq_mod pa 14).symm.trans pa_aligned
    have kind := page_desc_kind pa attr aligned
    obtain ⟨wired', _⟩ := leaf_step grows.wired l3 (vaL3i va) (pageDesc pa attr) _ arrives.hangs rfl inside
      (decode_page pa attr aligned)
    have adds := arrives.performs.adds.trans (adds_write s'.mem l3 (vaL3i va) _ kind)
    have root := arrives.root.trans (grows.wired.write_root l3 (vaL3i va) (pageDesc pa attr) _ arrives.hangs (by simp) inside)
    refine ⟨⟨place', ?_⟩, ?_, ?_, ?_, arrives.disciplined_iff paged attr va pa low va_aligned pa_aligned⟩
    · rw [arrives.ends]
      exact paged.adds wired' grows.keeps adds
    · rw [arrives.ends]
      exact adds
    · rw [arrives.ends]
      exact root
    · rw [arrives.ends, arrives.actions, Run.exec_append, arrives.performs.leaves]
      exact congrArg (fun view => after Valid view .flush) (quiet_write Valid s'.mem _ _ ((valid_iff _).mpr (.inr kind)))

end

section
variable (layout : Layout) (mem : Memory) (zeroed : Zeroed layout mem)
include zeroed

theorem boot_paged :
    Paged layout ((opalMmuEnable (layout.table 0) (bootMemory layout mem)).condemnLowHalf layout) (bootPlace layout) := by
  refine ⟨boot_wired zeroed, boot_place_table layout 2, fun k i within other inside => ?_⟩
  have zero : (0 : Nat) &&& 0b11 ≠ 0b01 := by decide
  have kind : ∀ pa a, pa % 2 ^ 14 = 0 → pageDesc pa a &&& 0b11 ≠ 0b01 := fun pa a aligned => by
    rw [page_desc_kind pa a aligned]
    decide
  have table : ∀ j, tableDesc (layout.table j) &&& 0b11 ≠ 0b01 := fun j => by
    rw [table_desc_kind _ (table_aligned layout j)]
    decide
  have built : ((opalMmuEnable (layout.table 0) (bootMemory layout mem)).condemnLowHalf layout).mem = bootMemory layout mem := rfl
  rw [built, boot_memory_word layout mem zeroed k i within inside]
  by_cases spare : 5 ≤ k
  · rw [bootWord, tree_word_spare _ _ k i spare]
    exact zero
  · interval_cases k
    · rw [bootWord, treeWord]
      split_ifs
      · exact table 1
      · exact zero
    · rw [bootWord, treeWord]
      split_ifs
      · exact table 2
      · exact zero
    · exact absurd rfl other
    · rw [bootWord, treeWord, kernel_page layout i inside]
      have base : ramBase = 65536 * 2 ^ 14 := rfl
      cases documented layout (ramBase + i * 2 ^ 14) with
      | none => exact zero
      | some a => exact kind _ a (by omega)
    · rw [bootWord, treeWord]
      split_ifs
      · exact kind _ _ (by decide)
      · exact kind _ _ (by omega)
      · exact zero

end

-- Calls one after another from the boot tables, as long as RUNTIME_IDX does not
-- wrap around: the rule is kept exactly where no call meets a page that is
-- already mapped in another way.
theorem break_before_make_iff (layout : Layout) (mmfr0 : Nat) (mem : Memory) (root : Nat) (built : Memory)
    (zeroed : Zeroed layout mem) (builds : opalBuildTables layout 0 mmfr0 mem = some (root, built))
    (calls : List IoremapCall)
    (unwrapped : Run.Along (IoremapCall.next layout) (fun s call => ¬ s.Wraps call.va call.pa)
      ((opalMmuEnable root built).condemnLowHalf layout) calls) :
    Run.Along (IoremapCall.next layout) (IoremapCall.Traced layout) ((opalMmuEnable root built).condemnLowHalf layout) calls ∧
      (Run.Along (IoremapCall.next layout) (IoremapCall.BreaksFirst layout)
          ((opalMmuEnable root built).condemnLowHalf layout) calls ↔
        Run.Along (IoremapCall.next layout) IoremapCall.Vacant ((opalMmuEnable root built).condemnLowHalf layout) calls) := by
  obtain ⟨rfl, rfl⟩ := build_succeeds layout mmfr0 mem root built builds
  have step : ∀ (s : State) (call : IoremapCall), (∃ place, Paged layout s place) → ¬ s.Wraps call.va call.pa →
      (∃ place, Paged layout (call.next layout s) place) ∧ call.Traced layout s ∧ (call.BreaksFirst layout s ↔ call.Vacant s) := by
    rintro s call ⟨place, paged⟩ fits
    have called := paged.call call fits
    exact ⟨called.paged, called.traced, called.exact_⟩
  have along := Run.along_of_invariant (IoremapCall.next layout) _ _ _ step _ calls ⟨_, boot_paged layout mem zeroed⟩ unwrapped
  rw [Run.along_and] at along
  refine ⟨along.1, fun breaks => ?_, fun vacant => ?_⟩
  · have both := (Run.along_and _ _ _ _ _).mpr ⟨along.2, breaks⟩
    exact Run.along_imp _ _ _ (fun s call shown => shown.1.mp shown.2) _ _ both
  · have both := (Run.along_and _ _ _ _ _).mpr ⟨along.2, vacant⟩
    exact Run.along_imp _ _ _ (fun s call shown => shown.1.mpr shown.2) _ _ both

theorem break_before_make_device :
    ∃ root built, opalBuildTables sampleLayout 0 0x100000 (fun _ => 0) = some (root, built) ∧
      Run.Along (IoremapCall.next sampleLayout) (IoremapCall.Traced sampleLayout)
          ((opalMmuEnable root built).condemnLowHalf sampleLayout) [.device (physToVirt 0x10000000) 0x10000000] ∧
        (Run.Along (IoremapCall.next sampleLayout) (IoremapCall.BreaksFirst sampleLayout)
            ((opalMmuEnable root built).condemnLowHalf sampleLayout) [.device (physToVirt 0x10000000) 0x10000000] ↔
          Run.Along (IoremapCall.next sampleLayout) IoremapCall.Vacant
            ((opalMmuEnable root built).condemnLowHalf sampleLayout) [.device (physToVirt 0x10000000) 0x10000000]) := by
  have builds := build_tables sampleLayout 0x100000 (fun _ => 0) (by decide)
  refine ⟨_, _, builds, break_before_make_iff sampleLayout 0x100000 (fun _ => 0) _ _ (fun _ _ _ => rfl) builds _ ⟨?_, trivial⟩⟩
  exact fun wraps => absurd wraps.1.symm (Nat.add_one_ne_zero (2 ^ 64 - 2))

-- A framebuffer in RAM that the boot tables map by pages.
theorem framebuffer_over_ram :
    ∃ root built, opalBuildTables sampleLayout 0 0x100000 (fun _ => 0) = some (root, built) ∧
      ¬ (IoremapCall.framebuffer (physToVirt 0x41000000) 0x41000000).BreaksFirst sampleLayout
        ((opalMmuEnable root built).condemnLowHalf sampleLayout) := by
  have blank : Zeroed sampleLayout fun _ => 0 := fun _ _ _ => rfl
  refine ⟨_, _, build_tables sampleLayout 0x100000 (fun _ => 0) (by decide), fun breaks => ?_⟩
  have paged := boot_paged sampleLayout (fun _ => 0) blank
  have call := paged.call (.framebuffer (physToVirt 0x41000000) 0x41000000) fun wraps =>
    absurd wraps.1.symm (Nat.add_one_ne_zero (2 ^ 64 - 2))
  have vacant := (paged.wired.vacant_iff .framebuffer (physToVirt 0x41000000) 0x41000000 (by decide) (by decide) (by decide)).mp
    (call.exact_.mp breaks)
  have indices_at : indices (physToVirt 0x41000000) = [0, 0, 32, 1024] := by decide
  have word : bootWord sampleLayout 3 1024 = pageDesc 0x41000000 .rw := by decide
  have found : TableTree.lookup (entry (bootMemory sampleLayout fun _ => 0)) 0 (sampleLayout.table 0) [0, 0, 32, 1024] =
      some (pageDesc 0x41000000 .rw, []) := by
    refine (TableTree.lookup_reaches paged.wired.rooted [0, 0, 32] [1024] _ (boot_place_table sampleLayout 3)).trans ?_
    refine Eq.trans (b := TableTree.lookup (entry (bootMemory sampleLayout fun _ => 0)) 3 (sampleLayout.table 3) [1024]) rfl ?_
    rw [TableTree.lookup, boot_entry sampleLayout _ blank 3 3 1024 (by omega) (by omega), word, decode_page _ _ (by decide)]
  rw [indices_at] at vacant
  have same := vacant _ found
  exact absurd same (by decide)

end Mmu

end Opal
