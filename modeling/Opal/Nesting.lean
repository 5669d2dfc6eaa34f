import Opal.Standing

set_option autoImplicit false

namespace Opal

open Reading Relation

namespace Fdt

section
variable (fdt : Fdtr)

-- The two recursive walks on a stack that holds this many of their calls.
def Fdtr.findByCompatibleWithin (frames : Nat) (substr : List UInt8) : Reading Node :=
  fdt.findByCompatibleBy (descend (fdt.searchCall substr) frames)

def Fdtr.dumpWithin (frames : Nat) : Reading (Option (List Fdtr.Line)) := fdt.dumpBy (descend fdt.dumpCall frames)

-- A load inside the blob, on the boundary that read_volatile demands.
def Fdtr.Fine (read : Load) : Prop := fdt.Inside read ∧ read.Aligned

-- A run reads only bytes of the blob, each word aligned, overflows neither an
-- integer nor the stack, keeps inside every slice, and ends within as many
-- rounds as the blob has bytes.
structure Fdtr.Robust (frames fuel : Nat) (mem : Nat → UInt8) : Prop where
  root : Safe fdt.Fine fuel mem fdt.root fun _ => True
  find : ∀ path, Safe fdt.Fine fuel mem (fdt.find path) fun _ => True
  findByCompatible : ∀ substr, Safe fdt.Fine fuel mem (fdt.findByCompatibleWithin frames substr) fun _ => True
  reserves : Safe fdt.Fine fuel mem fdt.reserves fun _ => True
  dump : Safe fdt.Fine fuel mem (fdt.dumpWithin frames) fun _ => True
  prop : ∀ node name, fdt.Obtains fuel mem node → Safe fdt.Fine fuel mem (fdt.prop node name) fun _ => True
  compatible : ∀ node, fdt.Obtains fuel mem node → Safe fdt.Fine fuel mem (fdt.compatible node) fun _ => True
  children : ∀ node, fdt.Obtains fuel mem node →
    Safe fdt.Fine fuel mem (fdt.children node >>= fdt.exhaust) fun kids =>
      ∀ kid ∈ kids, node.offset < kid.offset ∧ kid.offset < fdt.structStop

-- The first token and the first reservation are aligned, where the blob holds
-- them.
structure Fdtr.Placed : Prop where
  tokens : fdt.header.offDtStruct + 4 ≤ fdt.header.totalsize → (fdt.base + fdt.header.offDtStruct) % 4 = 0
  entries : fdt.header.offMemRsvmap + 8 ≤ fdt.header.totalsize → (fdt.base + fdt.header.offMemRsvmap) % 8 = 0

-- A node of the tree and how deep it is nested.
inductive Fdtr.Nested (mem : Nat → UInt8) : Nat → Node → Prop where
  | root (inside : fdt.header.offDtStruct + 4 ≤ fdt.header.totalsize)
      (token : fdt.wordAt mem fdt.header.offDtStruct = fdtBeginNode) : Fdtr.Nested mem 0 ⟨fdt.header.offDtStruct⟩
  | kid (depth : Nat) (node kid : Node) (parent : Fdtr.Nested mem depth node) (kin : fdt.Kid mem node kid) :
      Fdtr.Nested mem (depth + 1) kid

def Fdtr.Shallow (frames : Nat) (mem : Nat → UInt8) : Prop := ∀ depth node, fdt.Nested mem depth node → depth < frames

end

section
variable {fuel : Nat} {mem : Nat → UInt8} {fdt : Fdtr}

theorem nested_stands (depth : Nat) (node : Node) (nested : fdt.Nested mem depth node) : fdt.Stands mem node := by
  induction nested with
  | root inside token => exact .root inside token
  | kid _ node kid _ kin stands => exact .kid node kid stands kin

theorem present_cells (data : List UInt8) (cells : List Nat) : Present fuel mem (Fdtr.cellsOf data cells) := by
  induction cells with
  | nil => exact present_pure _
  | cons i rest ih =>
      refine present_bind (present_mul i 4) fun start => ?_
      refine present_bind (present_add start 4) fun stop => ?_
      refine present_bind (present_slice data start stop) fun cell => ?_
      exact present_bind ih fun later => present_pure _

theorem present_print_value (data : List UInt8) : Present fuel mem (Fdtr.printPropValue data) := by
  have text : Present fuel mem (Fdtr.shownString data) := by
    unfold Fdtr.shownString
    by_cases ends : data.getLast? = some 0
    · rw [if_pos ends]
      refine present_bind (present_sub _ 1) fun len => present_bind (present_slice data 0 len) fun text => ?_
      split_ifs <;> exact present_pure _
    · rw [if_neg ends]
      exact present_pure _
  unfold Fdtr.printPropValue
  by_cases empty : data = []
  · rw [if_pos empty]
    exact present_pure _
  · rw [if_neg empty]
    refine present_bind text fun shown => ?_
    cases shown with
    | some shown => exact present_pure _
    | none =>
        by_cases whole : data.length % 4 = 0
        · simp only [if_pos whole]
          exact present_bind (present_cells data _) fun words => present_pure _
        · simp only [if_neg whole]
          exact present_pure _

theorem present_indent (depth : Nat) : Present fuel mem (Fdtr.indentStr depth) :=
  present_bind (present_mul depth 2) fun _ => present_pure _

theorem present_dump_prop (off : Nat) : Present fuel mem (fdt.dumpProp off) := by
  refine present_bind (present_attempt _) fun token => ?_
  split_ifs
  · exact present_pure _
  refine present_bind (present_add off 4) fun off => present_bind (present_attempt _) fun len => ?_
  cases len with
  | none => exact present_pure _
  | some len =>
      refine present_bind (present_add off 4) fun nameoffAt => present_bind (present_attempt _) fun nameoff => ?_
      cases nameoff with
      | none => exact present_pure _
      | some nameoff =>
          refine present_bind (present_add off 8) fun off => ?_
          refine present_bind (present_attempt _) fun pname => present_bind (present_attempt _) fun data => ?_
          cases data with
          | none => exact present_pure _
          | some data =>
              refine present_bind (present_load data len) fun bytes => ?_
              refine present_bind (present_add len 3) fun padded => ?_
              exact present_bind (present_add off _) fun off => present_pure _

theorem present_dump_props (depth structEnd off : Nat) : Present fuel mem (fdt.dumpProps depth structEnd off) := by
  refine present_loop (fun at_ => ?_) _
  refine present_bind (present_add _ 4) fun offEnd => ?_
  split_ifs
  · refine present_bind (present_dump_prop _) fun found => ?_
    cases found with
    | none => exact present_pure _
    | some prop =>
        refine present_bind (present_add depth 1) fun deeper => ?_
        refine present_bind (present_indent deeper) fun indent => ?_
        exact present_bind (present_print_value prop.2.1) fun value => present_pure _
  · exact present_pure _

-- dump has no way to be missing: it returns, or it faults.
theorem present_dump (frames : Nat) : Present fuel mem (fdt.dumpWithin frames) := by
  refine present_bind (present_attempt _) fun root => ?_
  cases root with
  | none => exact present_pure _
  | some root =>
      refine present_bind (present_descend (fun call calls at_ => ?_) frames (root, 0)) fun lines => present_pure _
      refine present_bind (present_indent _) fun indent => ?_
      refine present_bind (present_bind (present_attempt _) fun raw => present_pure _) fun name => ?_
      refine present_bind (present_add _ 4) fun nameOff => present_bind (present_attempt _) fun nodeName => ?_
      refine present_bind (present_bind (present_add _ 1) fun len => ?_) fun namePadded => ?_
      · exact present_bind (present_add len 3) fun len => present_pure _
      refine present_bind (present_add nameOff namePadded) fun off => present_bind (present_add _ _) fun structEnd => ?_
      refine present_bind (present_dump_props _ structEnd off) fun props => ?_
      refine present_bind (present_bind (present_attempt _) fun first => present_pure _) fun iter => ?_
      refine present_bind (present_loop (fun at_ => ?_) _) fun below => present_pure _
      refine present_bind (present_attempt _) fun found => ?_
      cases found with
      | none => exact present_pure _
      | some pair =>
          refine present_bind (present_bind (present_add _ 1) fun deeper => ?_) fun round => ?_
          · exact present_bind (calls _) fun more => present_pure _
          · cases round <;> exact present_pure _

section
variable (sound : fdt.Sound) (enough : fdt.header.totalsize < fuel)
include sound enough

section
variable (frames : Nat) (shallow : fdt.Shallow frames mem)
include shallow

-- On a stack that holds a call for each level the walks run as on one without
-- end.
theorem search_within (substr : List UInt8) (left : Nat) : ∀ depth node deep, fdt.Nested mem depth node →
    frames ≤ depth + left → fdt.structStop - node.offset < deep →
      Mirrors fuel mem (descend (fdt.searchCall substr) left node) (descend (fdt.searchCall substr) deep node)
        fun _ => True := by
  have alike := alike_self fdt fuel mem
  induction left with
  | zero => exact fun depth node _ nested room _ => absurd (shallow depth node nested) (Nat.not_lt.mpr room)
  | succ left ih =>
      intro depth node deep nested room far
      obtain ⟨deep, rfl⟩ := Nat.exists_eq_succ_of_ne_zero (Nat.ne_of_gt (Nat.lt_of_le_of_lt (Nat.zero_le _) far))
      have stands := nested_stands depth node nested
      refine mirrors_bind (mirrors_self _) fun text _ => ?_
      split_ifs
      · exact mirrors_self _
      · refine mirrors_bind (mirrors_children sound enough alike node stands) fun iter walks => ?_
        refine mirrors_for_each sound enough alike node stands _ _ _ _ (fun _ => trivial) (fun kid _ kin => ?_) iter walks ()
        have below := kid_holds sound node kid kin
        refine mirrors_bind (ih (depth + 1) kid deep (.kid depth node kid nested kin) (by omega) (by omega)) fun found _ => ?_
        cases found with
        | none => exact mirrors_pure _ trivial
        | some hit => exact mirrors_pure _ trivial

theorem dump_within (left : Nat) : ∀ depth node level deep, fdt.Nested mem depth node → frames ≤ depth + left →
    fdt.structStop - node.offset < deep →
      Mirrors fuel mem (descend fdt.dumpCall left (node, level)) (descend fdt.dumpCall deep (node, level)) fun _ => True := by
  have alike := alike_self fdt fuel mem
  induction left with
  | zero => exact fun depth node _ _ nested room _ => absurd (shallow depth node nested) (Nat.not_lt.mpr room)
  | succ left ih =>
      intro depth node level deep nested room far
      obtain ⟨deep, rfl⟩ := Nat.exists_eq_succ_of_ne_zero (Nat.ne_of_gt (Nat.lt_of_le_of_lt (Nat.zero_le _) far))
      have stands := nested_stands depth node nested
      refine mirrors_bind (mirrors_self _) fun indent _ => ?_
      refine mirrors_bind (mirrors_self _) fun name _ => ?_
      refine mirrors_bind (mirrors_self _) fun nameOff _ => ?_
      refine mirrors_bind (mirrors_self _) fun nodeName _ => ?_
      refine mirrors_bind (mirrors_self _) fun namePadded _ => ?_
      refine mirrors_bind (mirrors_self _) fun off _ => ?_
      refine mirrors_bind (mirrors_self _) fun structEnd _ => ?_
      refine mirrors_bind (mirrors_self _) fun props _ => ?_
      refine mirrors_bind (mirrors_children sound enough alike node stands) fun iter walks => ?_
      refine mirrors_bind (mirrors_for_each sound enough alike node stands _ _ _ (fun _ => True) (fun _ => trivial)
        (fun kid _ kin => ?_) iter walks []) fun below _ => mirrors_self _
      have below := kid_holds sound node kid kin
      refine mirrors_bind (mirrors_self _) fun deeper _ => ?_
      refine mirrors_bind (ih (depth + 1) kid deeper deep (.kid depth node kid nested kin) (by omega) (by omega)) fun more _ => ?_
      exact mirrors_pure _ trivial

theorem find_by_compatible_within (substr : List UInt8) :
    fdt.findByCompatibleWithin frames substr fuel mem = fdt.findByCompatible substr fuel mem := by
  refine bind_same rfl fun root value => bind_same ?_ fun _ _ => rfl
  obtain ⟨inside, token, rfl⟩ := (root_value_iff sound root).mp value
  have stops := struct_stop_small sound
  exact (search_within sound enough frames shallow substr frames 0 _ fuel (.root inside token) (by omega) (by omega)).same

theorem dump_within_same : fdt.dumpWithin frames fuel mem = fdt.dump fuel mem := by
  refine bind_same rfl fun root value => ?_
  cases root with
  | none => rfl
  | some root =>
      obtain ⟨inside, token, rfl⟩ := (root_value_iff sound root).mp ((attempt_value_iff _ _).mp value)
      have stops := struct_stop_small sound
      refine bind_same ?_ fun _ _ => rfl
      exact (dump_within sound enough frames shallow frames 0 _ 0 fuel (.root inside token) (by omega) (by omega)).same

end

theorem each_round_returns {σ β : Type} (body : Node → σ → Reading (Round σ β)) (finish : σ → β) (b : β)
    (onward : ∀ child state round, (body child state fuel mem).1 = .value round → ∃ later, round = .again later)
    (kid : Node) (left : Nat) (iter : NodeIter) (start : σ) (going : iter.Going)
    (value : (rounds (fdt.eachRound body finish) left (iter, start) fuel mem).1 = .value b)
    (meets : fdt.Meets mem iter kid) : ∃ state round, (body kid state fuel mem).1 = .value round := by
  induction left generalizing iter start with
  | zero => cases value
  | succ left ih =>
      obtain ⟨step, round, rest⟩ := (bind_value_iff _ _ _).mp value
      obtain ⟨found, tried, round⟩ := (bind_value_iff _ _ _).mp round
      cases found with
      | none => exact absurd meets (meets_none sound enough iter going kid ((attempt_none_iff _).mp tried))
      | some pair =>
          obtain ⟨child, after⟩ := pair
          have next := (attempt_value_iff _ _).mp tried
          obtain ⟨body_round, ran, round⟩ := (bind_value_iff _ _ _).mp round
          obtain ⟨state, rfl⟩ := onward child start body_round ran
          cases round
          rcases (meets_next sound enough iter after going child kid next).mp meets with rfl | later
          · exact ⟨start, _, ran⟩
          · have leads := (next_leads_iff sound enough iter after going).mp ⟨child, next⟩
            exact ih after state (leads_onward sound iter after going leads).1 rest later

theorem dump_descends (left : Nat) (node kid : Node) (level : Nat) (lines : List Fdtr.Line) (holds : fdt.Holds node)
    (kin : fdt.Kid mem node kid) (value : (descend fdt.dumpCall left (node, level) fuel mem).1 = .value lines) :
    ∃ before more, left = before + 1 ∧ (descend fdt.dumpCall before (kid, level + 1) fuel mem).1 = .value more := by
  cases left with
  | zero => cases value
  | succ left =>
      obtain ⟨p, enters, meets⟩ := kin
      obtain ⟨indent, _, value⟩ := (bind_value_iff _ _ _).mp value
      obtain ⟨name, _, value⟩ := (bind_value_iff _ _ _).mp value
      obtain ⟨nameOff, _, value⟩ := (bind_value_iff _ _ _).mp value
      obtain ⟨nodeName, _, value⟩ := (bind_value_iff _ _ _).mp value
      obtain ⟨namePadded, _, value⟩ := (bind_value_iff _ _ _).mp value
      obtain ⟨off, _, value⟩ := (bind_value_iff _ _ _).mp value
      obtain ⟨structEnd, _, value⟩ := (bind_value_iff _ _ _).mp value
      obtain ⟨props, _, value⟩ := (bind_value_iff _ _ _).mp value
      obtain ⟨iter, first, value⟩ := (bind_value_iff _ _ _).mp value
      obtain ⟨below, looped, _⟩ := (bind_value_iff _ _ _).mp value
      have starts := (children_value_iff sound enough node holds ⟨p, 0⟩).mpr (.inl ⟨p, enters, rfl⟩)
      rw [starts] at first
      cases first
      have onward : ∀ child state round, (Fdtr.dumpChild (descend fdt.dumpCall left) level child state fuel mem).1 =
          .value round → ∃ later, round = .again later := by
        intro child state round ran
        obtain ⟨deeper, _, ran⟩ := (bind_value_iff _ _ _).mp ran
        obtain ⟨more, _, ran⟩ := (bind_value_iff _ _ _).mp ran
        cases ran
        exact ⟨_, rfl⟩
      obtain ⟨state, round, ran⟩ :=
        each_round_returns sound enough _ id below onward kid fuel _ [] (enters_going sound node p enters) looped meets
      obtain ⟨_, ran⟩ := (add_then_iff _ _ _ _).mp ran
      obtain ⟨more, called, _⟩ := (bind_value_iff _ _ _).mp ran
      exact ⟨left, more, rfl, called⟩

-- So a dump that returns has found room for every level.
theorem dumped_shallow (frames : Nat) (lines : Option (List Fdtr.Line)) (value : (fdt.dumpWithin frames fuel mem).1 = .value lines)
    (depth : Nat) (node : Node) (nested : fdt.Nested mem depth node) :
    ∃ left more, frames = depth + left ∧ (descend fdt.dumpCall left (node, depth) fuel mem).1 = .value more := by
  induction nested with
  | root inside token =>
      obtain ⟨root, tried, value⟩ := (bind_value_iff _ _ _).mp value
      have first := (@root_value_iff fuel mem fdt sound _).mpr ⟨inside, token, rfl⟩
      cases root with
      | none =>
          rw [(attempt_none_iff _).mp tried] at first
          cases first
      | some root =>
          rw [(attempt_value_iff _ _).mp tried] at first
          cases first
          obtain ⟨more, dumped, _⟩ := (bind_value_iff _ _ _).mp value
          exact ⟨frames, more, (Nat.zero_add _).symm, dumped⟩
  | kid depth node kid parent kin ih =>
      obtain ⟨left, lines, same, dumped⟩ := ih
      have holds := stands_holds sound node (nested_stands depth node parent)
      obtain ⟨before, more, rfl, called⟩ := dump_descends sound enough left node kid depth lines holds kin dumped
      exact ⟨before, more, by omega, called⟩

theorem shallow_of_dump (frames : Nat) (safe : Safe fdt.Fine fuel mem (fdt.dumpWithin frames) fun _ => True) :
    fdt.Shallow frames mem := by
  intro depth node nested
  have ends := safe.2
  cases result : (fdt.dumpWithin frames fuel mem).1 with
  | value lines =>
      obtain ⟨left, more, rfl, called⟩ := dumped_shallow sound enough frames lines result depth node nested
      cases left with
      | zero => cases called
      | succ left => omega
  | missing => exact absurd result (present_dump frames)
  | fault why =>
      rw [result] at ends
      exact ends.elim

end

theorem root_reads (inside : fdt.header.offDtStruct + 4 ≤ fdt.header.totalsize) (room : fdt.base + fdt.header.totalsize < wordEnd) :
    ⟨fdt.base + fdt.header.offDtStruct, 4⟩ ∈ (fdt.root fuel mem).2 := by
  refine reads_left _ ?_
  have run : fdt.structU32 fdt.header.offDtStruct fuel mem = _ := read_be_u32_run _ _ _ room
  rw [run, if_pos inside]
  exact List.mem_singleton_self _

theorem reserves_reads (some_ : 0 < fuel) (inside : fdt.header.offMemRsvmap + 8 ≤ fdt.header.totalsize)
    (room : fdt.base + fdt.header.totalsize < wordEnd) :
    ⟨fdt.base + fdt.header.offMemRsvmap, 8⟩ ∈ (fdt.reserves fuel mem).2 := by
  obtain ⟨left, rfl⟩ := Nat.exists_eq_succ_of_ne_zero (Nat.ne_of_gt some_)
  have stop : checkedAdd fdt.header.offMemRsvmap 8 = Pure.pure (fdt.header.offMemRsvmap + 8) := if_pos (by omega)
  have address : add fdt.base fdt.header.offMemRsvmap = Pure.pure (fdt.base + fdt.header.offMemRsvmap) := if_pos (by omega)
  refine reads_left _ (reads_left _ ?_)
  rw [attempt_log]
  refine reads_left _ ?_
  unfold Fdtr.structU64 readBeU64
  rw [stop, Reading.pure_bind, if_neg (Nat.not_lt.mpr inside), address, Reading.pure_bind]
  exact reads_left _ (List.mem_singleton_self _)

end

-- On an accepted blob every call is robust exactly when the tokens and the
-- reserve map are aligned, and the stack holds a call for each level of nodes.
theorem parser_robust_iff (dtbPa enough : Nat) (mem : Nat → UInt8) (fdt : Fdtr)
    (accepted : (Fdtr.new dtbPa enough mem).1 = .value fdt) (allocated : fdt.base + fdt.header.totalsize < wordEnd)
    (fuel : Nat) (rounds : fdt.header.totalsize < fuel) (frames : Nat) :
    fdt.Robust frames fuel mem ↔ fdt.Placed ∧ fdt.Shallow frames mem := by
  have sound := new_sound dtbPa fdt accepted allocated
  constructor
  · intro robust
    refine ⟨⟨fun inside => ?_, fun inside => ?_⟩, shallow_of_dump sound rounds frames robust.dump⟩
    · exact (robust.root.1 _ (root_reads inside allocated)).2
    · exact (robust.reserves.1 _ (reserves_reads (Nat.lt_of_le_of_lt (Nat.zero_le _) rounds) inside allocated)).2
  · rintro ⟨placed, shallow⟩
    have fair := sound.fair
    have fine : ∀ {α : Type} {m : Reading α} {post : α → Prop}, Safe (fdt.From fdt.header.offDtStruct) fuel mem m post →
        Safe fdt.Fine fuel mem m post :=
      fun safe => safe.widen fun read from_ => ⟨sound.inside from_, from_.aligned placed.tokens⟩
    have plain : ∀ {α : Type} {m : Reading α} {post : α → Prop}, Safe (fdt.From fdt.header.offDtStruct) fuel mem m post →
        Safe fdt.Fine fuel mem m fun _ => True := fun safe => (fine safe).weaken fun _ _ => trivial
    have same : ∀ {α : Type} {m m' : Reading α} {post : α → Prop}, m' fuel mem = m fuel mem → Safe fdt.Fine fuel mem m post →
        Safe fdt.Fine fuel mem m' post := fun equal safe => by
      unfold Safe
      rw [equal]
      exact safe
    have lies : ∀ node, fdt.Obtains fuel mem node → fdt.Holds node ∧ Onward fdt.header.offDtStruct node.offset :=
      obtained_lies sound rounds
    exact
      { root := plain (safe_root fair (onward_self _))
        find := fun path => plain (safe_find fair path (onward_self _) rounds)
        findByCompatible := fun substr => same (find_by_compatible_within sound rounds frames shallow substr)
          (plain (safe_find_by_compatible fair substr (onward_self _) rounds))
        reserves := (safe_reserves sound rounds).widen fun read entry => ⟨entry.inside, entry.aligned placed.entries⟩
        dump := same (dump_within_same sound rounds frames shallow) (plain (safe_dump fair (onward_self _) rounds))
        prop := fun node name obtained => plain (safe_prop fair node name (lies node obtained).1 (lies node obtained).2 rounds)
        compatible := fun node obtained => plain (safe_compatible fair node (lies node obtained).1 (lies node obtained).2 rounds)
        children := fun node obtained =>
          (fine (safe_exhaust fair node (lies node obtained).1 (lies node obtained).2 rounds)).weaken fun kids all kid member => by
            obtain ⟨past, inside⟩ := all kid member
            exact ⟨by omega, by omega⟩ }

-- A tree of one node, the structure block two bytes off a word boundary.
def skewed : List UInt8 :=
  [fdtMagic, 58, 42, 58, 0xFFFFFFFF, 17, 16, 0, 0, 16].flatMap be32 ++ [0, 0] ++
    [fdtBeginNode, 0, fdtEndNode, fdtEnd].flatMap be32

def skewedFdt : Fdtr := ⟨0xFFFF000040000000, ⟨fdtMagic, 58, 42, 58, 0xFFFFFFFF, 17, 16, 0, 0, 16⟩⟩

-- new accepts it with aligned reads alone. root reads a word at 42.
theorem skewed_block_misaligned :
    (Fdtr.new 0x40000000 0 (memoryAt 0x40000000 skewed)).1 = .value skewedFdt ∧
      (∀ read ∈ (Fdtr.new 0x40000000 0 (memoryAt 0x40000000 skewed)).2, read.Aligned) ∧
      ∀ frames fuel, ¬ skewedFdt.Robust frames fuel (memoryAt 0x40000000 skewed) := by
  refine ⟨by decide +kernel, by unfold Load.Aligned; decide +kernel, fun frames fuel robust => ?_⟩
  have aligned := (robust.root.1 _ (root_reads (by decide) (by decide))).2
  revert aligned
  unfold Load.Aligned
  decide

theorem huge_property_shallow : hugePropertyFdt.Shallow 1 (memoryAt 0x40000000 hugeProperty) := by
  have sound : hugePropertyFdt.Sound :=
    @new_sound 0 (memoryAt 0x40000000 hugeProperty) 0x40000000 hugePropertyFdt (by decide +kernel) (by decide)
  have alone : ∀ depth node, hugePropertyFdt.Nested (memoryAt 0x40000000 hugeProperty) depth node →
      depth = 0 ∧ node = ⟨40⟩ := by
    intro depth node nested
    induction nested with
    | root _ _ => exact ⟨rfl, rfl⟩
    | kid depth node kid _ kin ih =>
        obtain ⟨kids, value, lists⟩ :=
          @kids_value 61 (memoryAt 0x40000000 hugeProperty) hugePropertyFdt sound (by decide) ⟨40⟩ (by unfold Fdtr.Holds; decide)
        have nothing : ((hugePropertyFdt.children ⟨40⟩ >>= hugePropertyFdt.exhaust) 61
            (memoryAt 0x40000000 hugeProperty)).1 = .value [] := by decide +kernel
        rw [nothing] at value
        cases value
        exact absurd ((lists kid).mpr (ih.2 ▸ kin)) List.not_mem_nil
  intro depth node nested
  rw [(alone depth node nested).1]
  decide

-- One call is enough for a root without children.
theorem parser_robust_huge_property : hugePropertyFdt.Robust 1 61 (memoryAt 0x40000000 hugeProperty) :=
  (parser_robust_iff 0x40000000 0 (memoryAt 0x40000000 hugeProperty) hugePropertyFdt (by decide +kernel) (by decide) 61
    (by decide) 1).mpr ⟨⟨fun _ => by decide, fun no => absurd no (by decide)⟩, huge_property_shallow⟩

end Fdt

end Opal
