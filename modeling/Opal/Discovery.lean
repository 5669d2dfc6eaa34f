import Opal.Apple

set_option autoImplicit false

namespace Opal

open Reading

namespace Fdt

-- A cell that a short property does not hold reads as 0.
def cellAt (data : List UInt8) (pos : Nat) : Nat := if pos + 4 ≤ data.length then fromBe ((data.take (pos + 4)).drop pos) else 0

theorem cell_at_lt (data : List UInt8) (pos : Nat) : cellAt data pos < 2 ^ 32 := by
  unfold cellAt
  by_cases inside : pos + 4 ≤ data.length
  · rw [if_pos inside]
    have small := from_be_lt ((data.take (pos + 4)).drop pos)
    have length : ((data.take (pos + 4)).drop pos).length = 4 := by
      rw [List.length_drop, List.length_take, Nat.min_eq_left inside]
      omega
    rwa [length] at small
  · rw [if_neg inside]
    exact Nat.two_pow_pos 32

-- What the bytes of reg make of the base.
def completedBase (data : List UInt8) : Nat := cellAt data 0 <<< 32 ||| cellAt data 4

theorem completed_base_eq (data : List UInt8) : completedBase data = cellAt data 0 * 2 ^ 32 + cellAt data 4 := by
  rw [completedBase, ← Nat.shiftLeft_add_eq_or_of_lt (cell_at_lt data 4), Nat.shiftLeft_eq]

theorem completed_base_whole (data : List UInt8) (whole : 8 ≤ data.length) : completedBase data = fromBe (data.take 8) := by
  have split : data.take 8 = data.take 4 ++ (data.take 8).drop 4 := by
    have parts := List.take_append_drop 4 (data.take 8)
    rw [List.take_take] at parts
    exact parts.symm
  have low : ((data.take 8).drop 4).length = 4 := by simp [whole]
  have words : 256 ^ 4 = 2 ^ 32 := by decide
  rw [completed_base_eq, cellAt, cellAt, if_pos (by omega), if_pos whole, split, from_be_append, ← split, low, words]
  rfl

theorem completed_base_short (data : List UInt8) (short : data.length < 8) : completedBase data = cellAt data 0 * 2 ^ 32 := by
  have absent : cellAt data 4 = 0 := if_neg (by omega)
  rw [completed_base_eq, absent, Nat.add_zero]

section
variable {fuel : Nat} {mem : Nat → UInt8}

theorem next_cell_result (cells : CellIter) (low : cells.pos ≤ 4) :
    (Apple.nextCell cells fuel mem).1 = .value
      (cellAt cells.data cells.pos, { cells with pos := if cells.pos + 4 ≤ cells.data.length then cells.pos + 4 else cells.pos }) := by
  have stop : add cells.pos 4 = Pure.pure (cells.pos + 4) := if_pos (by unfold wordEnd; omega)
  have run : cells.next = if cells.pos + 4 > cells.data.length then missing else do
      let buf ← slice cells.data cells.pos (cells.pos + 4)
      return (fromBe buf, { cells with pos := cells.pos + 4 }) := by
    unfold CellIter.next
    rw [stop]
    rfl
  unfold Apple.nextCell cellAt
  rw [bind_result, attempt_result, run]
  by_cases inside : cells.pos + 4 ≤ cells.data.length
  · rw [if_neg (Nat.not_lt.mpr inside), if_pos inside, if_pos inside, slice, if_pos ⟨Nat.le_add_right _ _, inside⟩]
    rfl
  · rw [if_pos (Nat.lt_of_not_le inside), if_neg inside, if_neg inside]
    rfl

-- The bytes of a property, none where there is no such property.
def bytesOf : Result (List UInt8) → List UInt8
  | .value data => data
  | .missing => []
  | .fault _ => []

variable {fdt : Fdtr}

theorem prop_cells_result (sound : fdt.Sound) (rounds : fdt.header.totalsize < fuel) (node : Node) (holds : fdt.Holds node)
    (name : List UInt8) : (fdt.propCells node name fuel mem).1 = .value ⟨bytesOf (fdt.prop node name fuel mem).1, 0⟩ := by
  have safe := @safe_prop fuel mem fdt _ _ sound.fair node name holds (onward_self _) rounds
  have ends := safe.2
  unfold Fdtr.propCells
  rw [bind_result, attempt_result]
  cases result : (fdt.prop node name fuel mem).1 with
  | value data => rfl
  | missing => rfl
  | fault why =>
      rw [result] at ends
      exact ends.elim

theorem reg_base_result (sound : fdt.Sound) (rounds : fdt.header.totalsize < fuel) (node : Node) (holds : fdt.Holds node) :
    (Apple.regBase fdt node fuel mem).1 = .value (completedBase (bytesOf (fdt.prop node Apple.regName fuel mem).1)) := by
  have first := @prop_cells_result fuel mem fdt sound rounds node holds Apple.regName
  unfold Apple.regBase
  rw [bind_value _ first]
  generalize bytesOf (fdt.prop node Apple.regName fuel mem).1 = data
  rw [bind_value _ (next_cell_result ⟨data, 0⟩ (Nat.zero_le 4))]
  dsimp only
  by_cases upper : 0 + 4 ≤ data.length
  · rw [if_pos upper, bind_value _ (next_cell_result ⟨data, 0 + 4⟩ (le_refl 4))]
    rfl
  · rw [if_neg upper, bind_value _ (next_cell_result ⟨data, 0⟩ (Nat.zero_le 4))]
    have absent : cellAt data 0 = cellAt data 4 := (if_neg upper).trans (if_neg (by omega)).symm
    rw [completedBase, ← absent]
    rfl

-- prop_u32 with its default.
def geometryAt (fdt : Fdtr) (fuel : Nat) (mem : Nat → UInt8) (node : Node) (name : List UInt8) : Nat :=
  match (fdt.propU32 node name fuel mem).1 with
  | .value n => n
  | _ => 0

theorem geometry_result (sound : fdt.Sound) (rounds : fdt.header.totalsize < fuel) (node : Node) (holds : fdt.Holds node)
    (name : List UInt8) : (Apple.geometryOf fdt node name fuel mem).1 = .value (geometryAt fdt fuel mem node name) := by
  have safe : Safe (fdt.From node.offset) fuel mem (fdt.propU32 node name) fun _ => True := by
    refine safe_bind (safe_prop sound.fair node name holds (onward_self _) rounds) fun data _ => ?_
    split_ifs with short
    · exact safe_missing _
    · exact safe_bind (safe_slice data 0 4 (by decide) (Nat.le_of_not_lt short)) fun _ _ => safe_pure _ _ trivial
  have ends := safe.2
  unfold Apple.geometryOf geometryAt
  rw [bind_result, attempt_result]
  cases result : (fdt.propU32 node name fuel mem).1 with
  | value n => rfl
  | missing => rfl
  | fault why =>
      rw [result] at ends
      exact ends.elim

theorem found_cases (sound : fdt.Sound) (rounds : fdt.header.totalsize < fuel) (compat : List UInt8) :
    (fdt.findByCompatible compat fuel mem).1 = .missing ∨
      ∃ node, (fdt.findByCompatible compat fuel mem).1 = .value node ∧ fdt.Holds node := by
  have ends := (@safe_find_by_compatible fuel mem fdt _ _ sound.fair compat (onward_self _) rounds).2
  cases result : (fdt.findByCompatible compat fuel mem).1 with
  | value node =>
      rw [result] at ends
      exact .inr ⟨node, rfl, ends.1⟩
  | missing => exact .inl rfl
  | fault why =>
      rw [result] at ends
      exact ends.elim

end

end Fdt

open Fdt

namespace Apple

section
variable {fuel : Nat} {mem : Nat → UInt8}

-- The last array of the largest controller ends far below the end of the words.
theorem init_aic_result (info va : Nat) (low : va + 2 ^ 20 ≤ 2 ^ 64) : (initAic info va fuel mem).1 = .value () := by
  have read : add va Aic.aicInfo = Pure.pure (va + Aic.aicInfo) := if_pos (by unfold Aic.aicInfo wordEnd; omega)
  have stores : ∀ store ∈ ((Aic.new va).init info).2, store.addr < wordEnd := by
    intro store member
    have count : info &&& 0xFFFF ≤ 0xFFFF := Nat.and_le_right
    have at_ : (Aic.new va).base = va := rfl
    rcases (Aic.init_stores (Aic.new va) info store).mp member with ⟨i, small, rfl⟩ | ⟨i, small, rfl⟩ | ⟨i, small, rfl⟩
    all_goals
      unfold wordEnd
      simp only [at_, Aic.maskSetOff, Aic.swClr, Aic.numBanks, Aic.targetCpu] at small ⊢
      omega
  unfold initAic
  rw [read]
  exact congrArg (fun m : Reading Unit => (m fuel mem).1) (if_pos stores)

variable {layout : Mmu.Layout} {used : Nat}

-- A base that can be added to KERNEL_BASE, and that no mapping accepts unless
-- all of it is there.
structure Fit (data : List UInt8) : Prop where
  whole : 8 ≤ data.length → fromBe (data.take 8) < 2 ^ 48
  short : data.length < 8 → 2 ^ 15 ≤ cellAt data 0 ∧ cellAt data 0 < 2 ^ 16

theorem Fit.small {data : List UInt8} (fit : Fit data) : completedBase data < 2 ^ 48 := by
  by_cases whole : 8 ≤ data.length
  · rw [completed_base_whole data whole]
    exact fit.whole whole
  · have upper := (fit.short (Nat.lt_of_not_le whole)).2
    rw [completed_base_short data (Nat.lt_of_not_le whole)]
    omega

-- What a stage leaves of the tables for the stages after it.
structure Kept (layout : Mmu.Layout) (before after : Mmu.State) (used : Nat) : Prop where
  ready : Mmu.Ready layout after (used + 2)
  leads : ∀ pa, pa < 2 ^ 48 → before.leads layout (Mmu.physToVirt pa) = some pa → after.leads layout (Mmu.physToVirt pa) = some pa

theorem kept_same {s : Mmu.State} (ready : Mmu.Ready layout s used) : Kept layout s s used :=
  ⟨{ ready with used := Nat.le_add_right_of_le ready.used }, fun _ _ same => same⟩

-- The alias that all of reg names, once it is mapped there.
structure Aliased (layout : Mmu.Layout) (mmu : Mmu.State) (data : List UInt8) (va : Nat) : Prop where
  whole : 8 ≤ data.length
  small : fromBe (data.take 8) < 2 ^ 48
  at_ : va = Mmu.physToVirt (fromBe (data.take 8))
  leads : mmu.leads layout va = some (fromBe (data.take 8))

theorem mapped_call (attr : Mmu.Attr) (known : attr = .device ∨ attr = .framebuffer) (va pa : Nat) :
    ∃ call : Mmu.IoremapCall, call.attr = attr ∧ call.va = va ∧ call.pa = pa := by
  rcases known with rfl | rfl
  · exact ⟨.device va pa, rfl, rfl, rfl⟩
  · exact ⟨.framebuffer va pa, rfl, rfl, rfl⟩

section
variable {attr : Mmu.Attr} {bringUp : Nat → Reading Unit} {publish : Nat → Published → Published} {board : Board}
  {data : List UInt8}

theorem map_base_run (pa : Nat) (small : pa < 2 ^ 48) :
    mapBase layout attr bringUp publish pa board =
      match board.mmu.ioremap layout attr (Mmu.physToVirt pa) pa with
      | (.ok _, mmu) => do
          bringUp (Mmu.physToVirt pa)
          return (true, { published := publish (Mmu.physToVirt pa) board.published, mmu })
      | (.error _, mmu) => return (false, { board with mmu }) := by
  have based := (Mmu.alias_va pa small).1
  have va : physToVirt pa = Pure.pure (Mmu.physToVirt pa) := by
    rw [based]
    refine if_pos ?_
    unfold kernelBase wordEnd
    omega
  unfold mapBase
  rw [va]
  rfl

theorem map_base_fit (ready : Mmu.Ready layout board.mmu used) (few : used ≤ 6) (fit : Fit data)
    (known : attr = .device ∨ attr = .framebuffer)
    (quiet : ∀ va, va + 2 ^ 20 ≤ 2 ^ 64 → (bringUp va fuel mem).1 = .value ()) :
    ∃ done after, (mapBase layout attr bringUp publish (completedBase data) board fuel mem).1 = .value (done, after) ∧
      Kept layout board.mmu after.mmu used ∧
      (after.published = board.published ∨
        ∃ va, after.published = publish va board.published ∧ Aliased layout after.mmu data va) := by
  have small := fit.small
  obtain ⟨call, attr_eq, va_eq, pa_eq⟩ := mapped_call attr known (Mmu.physToVirt (completedBase data)) (completedBase data)
  have linear : call.va = Mmu.physToVirt call.pa := by rw [va_eq, pa_eq]
  have narrow : call.pa < 2 ^ 48 := by rwa [pa_eq]
  have ran : call.run layout board.mmu = board.mmu.ioremap layout attr (Mmu.physToVirt (completedBase data)) (completedBase data) := by
    rw [call.run_eq, attr_eq, va_eq, pa_eq]
  have kept : Kept layout board.mmu (call.next layout board.mmu) used :=
    ⟨ready.next few call, fun pa below same => ready.keeps few call narrow linear pa below same⟩
  have mapped := ready.maps few call narrow linear
  rw [map_base_run _ small, ← ran]
  unfold Mmu.IoremapCall.next at kept mapped
  rcases result : call.run layout board.mmu with ⟨_ | _, mmu⟩
  · rw [result] at kept
    exact ⟨false, { board with mmu }, rfl, kept, .inl rfl⟩
  · rw [result] at kept mapped
    -- The root refuses the upper half of the linear map.
    have lower : completedBase data < 2 ^ 47 := by
      by_contra upper
      obtain ⟨e, refused⟩ := ready.refuses attr (completedBase data) (Nat.le_of_not_lt upper) small
      rw [← ran, result] at refused
      cases refused
    have whole : 8 ≤ data.length := by
      by_contra short
      have high := (fit.short (Nat.lt_of_not_le short)).1
      rw [completed_base_short data (Nat.lt_of_not_le short)] at lower
      omega
    have based := (Mmu.alias_va (completedBase data) small).1
    have brought : (bringUp (Mmu.physToVirt (completedBase data)) fuel mem).1 = .value () := by
      refine quiet _ ?_
      rw [based]
      unfold Opal.kernelBase
      omega
    have leads := mapped rfl
    rw [va_eq, pa_eq] at leads
    refine ⟨true, ⟨publish (Mmu.physToVirt (completedBase data)) board.published, mmu⟩, bind_value _ brought, kept,
      .inr ⟨_, rfl, whole, fit.whole whole, ?_, ?_⟩⟩
    · rw [completed_base_whole data whole]
    · rw [← completed_base_whole data whole]
      exact leads

theorem map_base_overflow (pa : Nat) (large : 2 ^ 48 ≤ pa) :
    (mapBase layout attr bringUp publish pa board fuel mem).1 = .fault .overflow := by
  have overflows : physToVirt pa = stop .overflow := by
    refine if_neg ?_
    unfold kernelBase wordEnd
    omega
  unfold mapBase
  rw [overflows]
  rfl

-- From any other base the addition overflows, or a base of which a part is
-- missing gets published.
theorem map_base_unfit (ready : Mmu.Ready layout board.mmu used) (few : used ≤ 6) (unfit : ¬ Fit data) (done : Bool)
    (after : Board)
    (ends : (mapBase layout attr bringUp publish (completedBase data) board fuel mem).1 = .value (done, after)) :
    data.length < 8 ∧ completedBase data < 2 ^ 48 ∧
      after.published = publish (Mmu.physToVirt (completedBase data)) board.published := by
  have small : completedBase data < 2 ^ 48 := by
    by_contra large
    rw [map_base_overflow _ (Nat.le_of_not_lt large)] at ends
    cases ends
  have short : data.length < 8 := by
    by_contra whole
    refine unfit ⟨fun _ => ?_, fun short => absurd short whole⟩
    rwa [← completed_base_whole data (Nat.le_of_not_lt whole)]
  have base := completed_base_short data short
  rw [base] at small
  have lower : cellAt data 0 < 2 ^ 15 := by
    by_contra upper
    exact unfit ⟨fun whole => absurd short (Nat.not_lt.mpr whole), fun _ => ⟨Nat.le_of_not_lt upper, by omega⟩⟩
  obtain ⟨mmu, accepted⟩ := ready.accepts few attr (cellAt data 0) lower
  rw [base, map_base_run _ small, accepted] at ends
  obtain ⟨_, _, published⟩ := (bind_value_iff _ _ _).mp ends
  rw [base]
  refine ⟨short, small, ?_⟩
  exact congrArg (fun pair : Bool × Board => pair.2.published) (Result.value.inj published).symm

theorem map_base_publishes (pa : Nat) (done : Bool) (after : Board)
    (ends : (mapBase layout attr bringUp publish pa board fuel mem).1 = .value (done, after)) :
    after.published = board.published ∨ ∃ va, after.published = publish va board.published := by
  unfold mapBase at ends
  obtain ⟨va, _, ends⟩ := (bind_value_iff _ _ _).mp ends
  rcases result : board.mmu.ioremap layout attr va pa with ⟨_ | _, mmu⟩
  · rw [result] at ends
    have same := Result.value.inj ends
    exact .inl (congrArg (fun pair : Bool × Board => pair.2.published) same).symm
  · rw [result] at ends
    obtain ⟨_, _, published⟩ := (bind_value_iff _ _ _).mp ends
    exact .inr ⟨va, congrArg (fun pair : Bool × Board => pair.2.published) (Result.value.inj published).symm⟩

end

theorem Aliased.kept {before after : Mmu.State} {data : List UInt8} {va : Nat} (aliased : Aliased layout before data va)
    (kept : Kept layout before after used) : Aliased layout after data va := by
  refine { aliased with leads := ?_ }
  rw [aliased.at_]
  exact kept.leads _ aliased.small (aliased.at_ ▸ aliased.leads)

section
variable (fdt : Fdtr) (fuel : Nat) (mem : Nat → UInt8)

def reg (node : Node) : List UInt8 := bytesOf (fdt.prop node regName fuel mem).1

-- What may be published for a device: the alias of the base in its node.
def Backed (layout : Mmu.Layout) (compat : List UInt8) (mmu : Mmu.State) (va : Nat) : Prop :=
  ∃ node, (fdt.findByCompatible compat fuel mem).1 = .value node ∧ Aliased layout mmu (reg fdt fuel mem node) va

def Fitting (compat : List UInt8) (skips : Node → Prop) : Prop :=
  ∀ node, (fdt.findByCompatible compat fuel mem).1 = .value node → ¬ skips node → Fit (reg fdt fuel mem node)

variable {fdt fuel mem} in
theorem Backed.kept {compat : List UInt8} {before after : Mmu.State} {va : Nat}
    (backed : Backed fdt fuel mem layout compat before va) (kept : Kept layout before after used) :
    Backed fdt fuel mem layout compat after va := by
  obtain ⟨node, found, aliased⟩ := backed
  exact ⟨node, found, aliased.kept kept⟩

-- One device's part of init. places says what it publishes.
structure Stage (layout : Mmu.Layout) (m : Board → Reading Board) (compat : List UInt8) (skips : Node → Prop)
    (places : Published → Nat → Published → Prop) : Prop where
  fit : Fitting fdt fuel mem compat skips → ∀ board used, Mmu.Ready layout board.mmu used → used ≤ 6 →
    ∃ after, (m board fuel mem).1 = .value after ∧ Kept layout board.mmu after.mmu used ∧
      (after.published = board.published ∨
        ∃ va, places board.published va after.published ∧ Backed fdt fuel mem layout compat after.mmu va)
  unfit : ¬ Fitting fdt fuel mem compat skips → ∀ board used, Mmu.Ready layout board.mmu used → used ≤ 6 →
    ∀ after, (m board fuel mem).1 = .value after →
      ∃ va, va ≠ 0 ∧ places board.published va after.published ∧ ∀ mmu, ¬ Backed fdt fuel mem layout compat mmu va
  places : ∀ board after, (m board fuel mem).1 = .value after →
    after.published = board.published ∨ ∃ va, places board.published va after.published

end

section
variable {fdt : Fdtr} {compat : List UInt8} {skips : Node → Prop} {places : Published → Nat → Published → Prop}

theorem stage_of_map (m : Board → Reading Board) (attr : Mmu.Attr) (bringUp : Nat → Reading Unit)
    (publish : Node → Nat → Published → Published) (sound : fdt.Sound) (rounds : fdt.header.totalsize < fuel)
    (absent : (fdt.findByCompatible compat fuel mem).1 = .missing → ∀ board, (m board fuel mem).1 = .value board)
    (skipped : ∀ node, (fdt.findByCompatible compat fuel mem).1 = .value node → fdt.Holds node → skips node →
      ∀ board, (m board fuel mem).1 = .value board)
    (mapped : ∀ node, (fdt.findByCompatible compat fuel mem).1 = .value node → fdt.Holds node → ¬ skips node →
      ∀ board, (m board fuel mem).1 =
        ((mapBase layout attr bringUp (publish node) (completedBase (reg fdt fuel mem node)) board >>=
          fun done => return done.2) fuel mem).1)
    (placed : ∀ node va before, places before va (publish node va before))
    (known : attr = .device ∨ attr = .framebuffer)
    (quiet : ∀ va, va + 2 ^ 20 ≤ 2 ^ 64 → (bringUp va fuel mem).1 = .value ()) :
    Stage fdt fuel mem layout m compat skips places := by
  have cases_ := @found_cases fuel mem fdt sound rounds compat
  refine ⟨fun fitting board used ready few => ?_, fun unfitting board used ready few after ends => ?_,
    fun board after ends => ?_⟩
  · rcases cases_ with missing | ⟨node, found, holds⟩
    · exact ⟨board, absent missing board, kept_same ready, .inl rfl⟩
    · by_cases skip : skips node
      · exact ⟨board, skipped node found holds skip board, kept_same ready, .inl rfl⟩
      · have maps : ∃ done after,
            (mapBase layout attr bringUp (publish node) (completedBase (reg fdt fuel mem node)) board fuel mem).1 =
              .value (done, after) ∧ _ := map_base_fit ready few (fitting node found skip) known quiet
        obtain ⟨done, after, ends, kept, published⟩ := maps
        refine ⟨after, ?_, kept, ?_⟩
        · rw [mapped node found holds skip, bind_value _ ends]
          rfl
        · rcases published with same | ⟨va, set, aliased⟩
          · exact .inl same
          · refine .inr ⟨va, ?_, node, found, aliased⟩
            rw [set]
            exact placed node va board.published
  · -- The device is there, is not skipped, and its base does not fit.
    unfold Fitting at unfitting
    push Not at unfitting
    obtain ⟨node, found, skip, unfit⟩ := unfitting
    have holds : fdt.Holds node := by
      rcases cases_ with missing | ⟨other, same, holds⟩
      · rw [missing] at found
        cases found
      · rw [same] at found
        cases found
        exact holds
    rw [mapped node found holds skip] at ends
    obtain ⟨⟨done, board'⟩, ran, same⟩ := (bind_value_iff _ _ _).mp ends
    obtain rfl := Result.value.inj same
    obtain ⟨short, small, published⟩ := map_base_unfit ready few unfit done board' ran
    refine ⟨Mmu.physToVirt (completedBase (reg fdt fuel mem node)), ?_, ?_, ?_⟩
    · rw [(Mmu.alias_va _ small).1]
      unfold Opal.kernelBase
      omega
    · dsimp only
      rw [published]
      exact placed node _ _
    · rintro mmu ⟨other, again, aliased⟩
      rw [found] at again
      cases again
      exact absurd aliased.whole (Nat.not_le.mpr short)
  · rcases cases_ with missing | ⟨node, found, holds⟩
    · rw [absent missing board] at ends
      obtain rfl := Result.value.inj ends
      exact .inl rfl
    · by_cases skip : skips node
      · rw [skipped node found holds skip board] at ends
        obtain rfl := Result.value.inj ends
        exact .inl rfl
      · rw [mapped node found holds skip] at ends
        obtain ⟨⟨done, board'⟩, ran, same⟩ := (bind_value_iff _ _ _).mp ends
        obtain rfl := Result.value.inj same
        rcases map_base_publishes _ done board' ran with same | ⟨va, set⟩
        · exact .inl same
        · refine .inr ⟨va, ?_⟩
          dsimp only
          rw [set]
          exact placed node va board.published

end

section
variable {fdt : Fdtr} (sound : fdt.Sound) (rounds : fdt.header.totalsize < fuel)
include sound rounds

theorem uart_stage : Stage fdt fuel mem layout (discoverUart layout fdt) uartCompatible (fun _ => False)
    fun before va after => after = { before with uartBase := va } := by
  refine stage_of_map _ .device (fun _ => return ()) (fun _ va p => { p with uartBase := va }) sound rounds ?_ (fun _ _ _ no => no.elim) ?_
    (fun _ _ _ => rfl) (.inl rfl) (fun _ _ => rfl)
  · intro missing board
    unfold discoverUart
    rw [bind_result, attempt_result, missing]
    rfl
  · intro node found holds _ board
    have base := @reg_base_result fuel mem fdt sound rounds node holds
    unfold discoverUart
    rw [bind_result, attempt_result, found]
    exact bind_value _ base

theorem aic_stage (info : Nat) : Stage fdt fuel mem layout (discoverAic layout info fdt) aicCompatible (fun _ => False)
    fun before va after => after = { before with aic := va } := by
  refine stage_of_map _ .device _ (fun _ va p => { p with aic := va }) sound rounds ?_ (fun _ _ _ no => no.elim) ?_
    (fun _ _ _ => rfl) (.inl rfl) (init_aic_result info)
  · intro missing board
    unfold discoverAic
    rw [bind_result, attempt_result, missing]
    rfl
  · intro node found holds _ board
    have base := @reg_base_result fuel mem fdt sound rounds node holds
    unfold discoverAic
    rw [bind_result, attempt_result, found]
    exact bind_value _ base

end

-- A framebuffer is skipped without a size, and without a base.
def Skips (fdt : Fdtr) (fuel : Nat) (mem : Nat → UInt8) (node : Node) : Prop :=
  (geometryAt fdt fuel mem node widthName = 0 ∨ geometryAt fdt fuel mem node heightName = 0 ∨
    geometryAt fdt fuel mem node strideName = 0) ∨
    cellAt (reg fdt fuel mem node) 0 = 0 ∧ cellAt (reg fdt fuel mem node) 4 = 0

section
variable {fdt : Fdtr} (sound : fdt.Sound) (rounds : fdt.header.totalsize < fuel)
include sound rounds

theorem fb_stage : Stage fdt fuel mem layout (fun board => initFromFdt layout fdt board >>= fun done => return done.2) fbCompatible
    (Skips fdt fuel mem) fun before va after => ∃ width height stride, after = { before with fb := ⟨va, width, height, stride⟩ } := by
  have measured := fun (node : Node) (holds : fdt.Holds node) (name : List UInt8) =>
    @geometry_result fuel mem fdt sound rounds node holds name
  have run : ∀ node, (fdt.findByCompatible fbCompatible fuel mem).1 = .value node → fdt.Holds node → ∀ board,
      (initFromFdt layout fdt board fuel mem).1 =
        ((if geometryAt fdt fuel mem node widthName = 0 ∨ geometryAt fdt fuel mem node heightName = 0 ∨
            geometryAt fdt fuel mem node strideName = 0 then return (false, board)
          else if completedBase (reg fdt fuel mem node) = 0 then return (false, board)
          else
            mapBase layout .framebuffer (fun _ => return ())
              (fun va p => { p with fb :=
                ⟨va, geometryAt fdt fuel mem node widthName, geometryAt fdt fuel mem node heightName,
                  geometryAt fdt fuel mem node strideName⟩ }) (completedBase (reg fdt fuel mem node)) board :
          Reading (Bool × Board)) fuel mem).1 := by
    intro node found holds board
    have base := @reg_base_result fuel mem fdt sound rounds node holds
    unfold initFromFdt
    rw [bind_result, attempt_result, found]
    dsimp only
    rw [bind_value _ (measured node holds widthName), bind_value _ (measured node holds heightName),
      bind_value _ (measured node holds strideName)]
    split_ifs with sized based
    · rfl
    · rw [bind_value _ base]
      unfold reg at based
      rw [if_pos based]
    · rw [bind_value _ base]
      unfold reg at based
      rw [if_neg based]
      rfl
  have null : ∀ data, completedBase data = 0 ↔ cellAt data 0 = 0 ∧ cellAt data 4 = 0 := fun data => by
    rw [completed_base_eq]
    omega
  refine stage_of_map _ .framebuffer (fun _ => return ())
    (fun node va p => { p with fb :=
      ⟨va, geometryAt fdt fuel mem node widthName, geometryAt fdt fuel mem node heightName,
        geometryAt fdt fuel mem node strideName⟩ }) sound rounds ?_ ?_ ?_ (fun _ _ _ => ⟨_, _, _, rfl⟩) (.inr rfl) (fun _ _ => rfl)
  · intro missing board
    unfold initFromFdt
    rw [bind_result, bind_result, attempt_result, missing]
    rfl
  · intro node found holds skip board
    rw [bind_result, run node found holds board]
    by_cases sized : geometryAt fdt fuel mem node widthName = 0 ∨ geometryAt fdt fuel mem node heightName = 0 ∨
        geometryAt fdt fuel mem node strideName = 0
    · rw [if_pos sized]
      rfl
    · rw [if_neg sized, if_pos ((null _).mpr (skip.resolve_left sized))]
      rfl
  · intro node found holds skip board
    unfold Skips at skip
    rw [not_or, ← null] at skip
    rw [bind_result, bind_result, run node found holds board, if_neg skip.1, if_neg skip.2]

end

section
variable (fdt : Fdtr) (fuel : Nat) (mem : Nat → UInt8)

-- Each place is as it was, or holds the alias that its node names.
structure Faithful (layout : Mmu.Layout) (before : Published) (after : Board) : Prop where
  uart : after.published.uartBase = before.uartBase ∨
    Backed fdt fuel mem layout uartCompatible after.mmu after.published.uartBase
  aic : after.published.aic = before.aic ∨ Backed fdt fuel mem layout aicCompatible after.mmu after.published.aic
  fb : after.published.fb = before.fb ∨ Backed fdt fuel mem layout fbCompatible after.mmu after.published.fb.va

structure Tolerable : Prop where
  uart : Fitting fdt fuel mem uartCompatible fun _ => False
  aic : Fitting fdt fuel mem aicCompatible fun _ => False
  fb : Fitting fdt fuel mem fbCompatible (Skips fdt fuel mem)

end

section
variable {fdt : Fdtr} (sound : fdt.Sound) (rounds : fdt.header.totalsize < fuel)
include sound rounds

theorem uart_frame (board after : Board) (ends : (discoverUart layout fdt board fuel mem).1 = .value after) :
    after.published.aic = board.published.aic ∧ after.published.fb = board.published.fb := by
  rcases (uart_stage sound rounds).places board after ends with same | ⟨va, same⟩
  · simp [same]
  · simp [same]

theorem aic_frame (info : Nat) (board after : Board) (ends : (discoverAic layout info fdt board fuel mem).1 = .value after) :
    after.published.uartBase = board.published.uartBase ∧ after.published.fb = board.published.fb := by
  rcases (aic_stage sound rounds info).places board after ends with same | ⟨va, same⟩
  · simp [same]
  · simp [same]

theorem fb_frame (board after : Board)
    (ends : ((initFromFdt layout fdt board >>= fun done => return done.2) fuel mem).1 = .value after) :
    after.published.uartBase = board.published.uartBase ∧ after.published.aic = board.published.aic := by
  rcases (fb_stage sound rounds).places board after ends with same | ⟨va, width, height, stride, same⟩
  · simp [same]
  · simp [same]

omit sound rounds in
theorem init_value (info : Nat) (board after : Board) :
    (init layout info (some fdt) board fuel mem).1 = .value after ↔
      ∃ b1, (discoverUart layout fdt board fuel mem).1 = .value b1 ∧
        ∃ b2, (discoverAic layout info fdt b1 fuel mem).1 = .value b2 ∧
          ((initFromFdt layout fdt b2 >>= fun done => return done.2) fuel mem).1 = .value after := by
  unfold init
  rw [bind_value_iff]
  simp only [bind_value_iff]

theorem init_tolerates (info : Nat) (tolerable : Tolerable fdt fuel mem) (board : Board) (ready : Mmu.Ready layout board.mmu 0) :
    ∃ after, (init layout info (some fdt) board fuel mem).1 = .value after ∧
      Faithful fdt fuel mem layout board.published after := by
  obtain ⟨b1, ran1, kept1, uart⟩ := (uart_stage sound rounds).fit tolerable.uart board 0 ready (by decide)
  obtain ⟨b2, ran2, kept2, aic⟩ := (aic_stage sound rounds info).fit tolerable.aic b1 2 kept1.ready (by decide)
  obtain ⟨b3, ran3, kept3, fb⟩ := (fb_stage sound rounds).fit tolerable.fb b2 4 kept2.ready (by decide)
  obtain ⟨aic1, fb1⟩ := uart_frame sound rounds board b1 ran1
  obtain ⟨uart2, fb2⟩ := aic_frame sound rounds info b1 b2 ran2
  obtain ⟨uart3, aic3⟩ := fb_frame sound rounds b2 b3 ran3
  refine ⟨b3, (init_value info board b3).mpr ⟨b1, ran1, b2, ran2, ran3⟩, ?_, ?_, ?_⟩
  · rw [uart3, uart2]
    rcases uart with same | ⟨va, set, backed⟩
    · exact .inl (congrArg Published.uartBase same)
    · rw [set]
      exact .inr ((backed.kept kept2).kept kept3)
  · rw [aic3, ← aic1]
    rcases aic with same | ⟨va, set, backed⟩
    · exact .inl (congrArg Published.aic same)
    · rw [set]
      exact .inr (backed.kept kept3)
  · rw [← fb1, ← fb2]
    rcases fb with same | ⟨va, ⟨width, height, stride, set⟩, backed⟩
    · exact .inl (congrArg Published.fb same)
    · rw [set]
      exact .inr backed

theorem fb_tolerates (fitting : Fitting fdt fuel mem fbCompatible (Skips fdt fuel mem)) (board : Board)
    (ready : Mmu.Ready layout board.mmu 0) :
    ∃ done after, (initFromFdt layout fdt board fuel mem).1 = .value (done, after) ∧
      Faithful fdt fuel mem layout board.published after := by
  obtain ⟨after, ran, kept, fb⟩ := (fb_stage sound rounds).fit fitting board 0 ready (by decide)
  obtain ⟨uart, aic⟩ := fb_frame sound rounds board after ran
  obtain ⟨⟨done, board'⟩, first, same⟩ := (bind_value_iff _ _ _).mp ran
  obtain rfl := Result.value.inj same
  refine ⟨done, board', first, .inl uart, .inl aic, ?_⟩
  rcases fb with same | ⟨va, ⟨width, height, stride, set⟩, backed⟩
  · exact .inl (congrArg Published.fb same)
  · dsimp only at set ⊢
    rw [set]
    exact .inr backed

-- Nothing published yet.
def blank : Published := ⟨0, 0, ⟨0, 0, 0, 0⟩⟩

theorem tolerates_fits (info : Nat) (mmu : Mmu.State) (ready : Mmu.Ready layout mmu 0)
    (tolerates : ∃ after, (init layout info (some fdt) ⟨blank, mmu⟩ fuel mem).1 = .value after ∧
      Faithful fdt fuel mem layout blank after) : Tolerable fdt fuel mem := by
  obtain ⟨b3, ends, faithful⟩ := tolerates
  obtain ⟨b1, ran1, b2, ran2, ran3⟩ := (init_value info _ b3).mp ends
  obtain ⟨aic1, fb1⟩ := uart_frame sound rounds _ b1 ran1
  obtain ⟨uart2, fb2⟩ := aic_frame sound rounds info b1 b2 ran2
  obtain ⟨uart3, aic3⟩ := fb_frame sound rounds b2 b3 ran3
  -- Each stage in turn, on the tables that the stages before it leave.
  have uart : Fitting fdt fuel mem uartCompatible fun _ => False := by
    by_contra unfit
    obtain ⟨va, some_, set, never⟩ := (uart_stage sound rounds).unfit unfit ⟨blank, mmu⟩ 0 ready (by decide) b1 ran1
    have here : b3.published.uartBase = va := by rw [uart3, uart2, set]
    rcases faithful.uart with same | backed
    · exact some_ (here.symm.trans same)
    · rw [here] at backed
      exact never _ backed
  obtain ⟨b1', again1, kept1, _⟩ := (uart_stage sound rounds).fit uart ⟨blank, mmu⟩ 0 ready (by decide)
  obtain rfl := Result.value.inj (ran1.symm.trans again1)
  have aic : Fitting fdt fuel mem aicCompatible fun _ => False := by
    by_contra unfit
    obtain ⟨va, some_, set, never⟩ := (aic_stage sound rounds info).unfit unfit b1 2 kept1.ready (by decide) b2 ran2
    have here : b3.published.aic = va := by rw [aic3, set]
    rcases faithful.aic with same | backed
    · exact some_ (here.symm.trans same)
    · rw [here] at backed
      exact never _ backed
  obtain ⟨b2', again2, kept2, _⟩ := (aic_stage sound rounds info).fit aic b1 2 kept1.ready (by decide)
  obtain rfl := Result.value.inj (ran2.symm.trans again2)
  refine ⟨uart, aic, ?_⟩
  by_contra unfit
  obtain ⟨va, some_, ⟨width, height, stride, set⟩, never⟩ :=
    (fb_stage sound rounds).unfit unfit b2 4 kept2.ready (by decide) b3 ran3
  have here : b3.published.fb.va = va := by rw [set]
  rcases faithful.fb with same | backed
  · exact some_ (here.symm.trans (congrArg Fb.Geometry.va same))
  · rw [here] at backed
    exact never _ backed

end

-- Discovery copes with a blob exactly when each base that it takes from there
-- can be added to KERNEL_BASE, and is not mapped when a part of it is missing.
theorem discovery_iff (layout : Mmu.Layout) (tables : Mmu.Memory) (zeroed : Mmu.Zeroed layout tables) (info dtbPa enough : Nat)
    (mem : Nat → UInt8) (fdt : Fdtr) (accepted : (Fdtr.new dtbPa enough mem).1 = .value fdt)
    (allocated : fdt.base + fdt.header.totalsize < wordEnd) (fuel : Nat) (rounds : fdt.header.totalsize < fuel) :
    ((∀ before, ∃ after,
        (init layout info (some fdt) ⟨before, Mmu.booted layout tables⟩ fuel mem).1 = .value after ∧
          Faithful fdt fuel mem layout before after) ∧
      ∀ before, ∃ done after,
        (initFromFdt layout fdt ⟨before, Mmu.booted layout tables⟩ fuel mem).1 = .value (done, after) ∧
          Faithful fdt fuel mem layout before after) ↔ Tolerable fdt fuel mem := by
  have sound := new_sound dtbPa fdt accepted allocated
  have ready := Mmu.boot_ready layout tables zeroed
  refine ⟨fun tolerates => tolerates_fits sound rounds info _ ready (tolerates.1 blank), fun tolerable => ⟨?_, ?_⟩⟩
  · exact fun before => init_tolerates sound rounds info tolerable ⟨before, _⟩ ready
  · exact fun before => fb_tolerates sound rounds tolerable.fb ⟨before, _⟩ ready

end

theorem discovery_iff_huge_property :
    ((∀ before, ∃ after,
        (init Mmu.sampleLayout 0 (some hugePropertyFdt) ⟨before, Mmu.booted Mmu.sampleLayout fun _ => 0⟩ 61
            (memoryAt 0x40000000 hugeProperty)).1 = .value after ∧
          Faithful hugePropertyFdt 61 (memoryAt 0x40000000 hugeProperty) Mmu.sampleLayout before after) ∧
      ∀ before, ∃ done after,
        (initFromFdt Mmu.sampleLayout hugePropertyFdt ⟨before, Mmu.booted Mmu.sampleLayout fun _ => 0⟩ 61
            (memoryAt 0x40000000 hugeProperty)).1 = .value (done, after) ∧
          Faithful hugePropertyFdt 61 (memoryAt 0x40000000 hugeProperty) Mmu.sampleLayout before after) ↔
      Tolerable hugePropertyFdt 61 (memoryAt 0x40000000 hugeProperty) :=
  discovery_iff Mmu.sampleLayout (fun _ => 0) (fun _ _ _ => rfl) 0 0x40000000 0 (memoryAt 0x40000000 hugeProperty)
    hugePropertyFdt (by decide +kernel) (by decide) 61 (by decide)

-- A UART whose base has bit 48 set.
def farUart : List UInt8 :=
  [fdtMagic, 128, 40, 112, 128, 17, 16, 0, 16, 72, fdtBeginNode, 0, fdtProp, 15, 0, 0x6170706c, 0x652c7335, 0x6c2d7561, 0x72740000,
    fdtProp, 16, 11, 0x10000, 0, 0, 0x4000, fdtEndNode, fdtEnd, 0x636f6d70, 0x61746962, 0x6c650072, 0x65670000].flatMap be32

def farUartFdt : Fdtr where
  base := 0xFFFF000040000000
  header := ⟨fdtMagic, 128, 40, 112, 128, 17, 16, 0, 16, 72⟩

-- A UART without reg.
def bareUart : List UInt8 :=
  [fdtMagic, 100, 40, 84, 100, 17, 16, 0, 16, 44, fdtBeginNode, 0, fdtProp, 15, 0, 0x6170706c, 0x652c7335, 0x6c2d7561, 0x72740000,
    fdtEndNode, fdtEnd, 0x636f6d70, 0x61746962, 0x6c650072, 0x65670000].flatMap be32

def bareUartFdt : Fdtr where
  base := 0xFFFF000040000000
  header := ⟨fdtMagic, 100, 40, 84, 100, 17, 16, 0, 16, 44⟩

-- On the one the addition overflows. On the other KERNEL_BASE itself becomes
-- the console.
theorem uart_base_unchecked :
    ((Fdtr.new 0x40000000 129 (memoryAt 0x40000000 farUart)).1 = .value farUartFdt ∧
      (init Mmu.sampleLayout 0 (some farUartFdt) ⟨blank, Mmu.booted Mmu.sampleLayout fun _ => 0⟩ 129
        (memoryAt 0x40000000 farUart)).1 = .fault .overflow) ∧
      (Fdtr.new 0x40000000 101 (memoryAt 0x40000000 bareUart)).1 = .value bareUartFdt ∧
        (bareUartFdt.prop ⟨40⟩ regName 101 (memoryAt 0x40000000 bareUart)).1 = .missing ∧
          ∃ after, (init Mmu.sampleLayout 0 (some bareUartFdt) ⟨blank, Mmu.booted Mmu.sampleLayout fun _ => 0⟩ 101
            (memoryAt 0x40000000 bareUart)).1 = .value after ∧ after.published.uartBase = kernelBase := by
  refine ⟨⟨by decide +kernel, ?_⟩, by decide +kernel, by decide +kernel, ?_⟩
  · have found : (farUartFdt.findByCompatible uartCompatible 129 (memoryAt 0x40000000 farUart)).1 = .value ⟨40⟩ := by decide +kernel
    have base : (regBase farUartFdt ⟨40⟩ 129 (memoryAt 0x40000000 farUart)).1 = .value (2 ^ 48) := by decide +kernel
    unfold init discoverUart
    rw [bind_result, bind_result, attempt_result, found]
    dsimp only
    rw [bind_value _ base, bind_result, map_base_overflow _ (le_refl _)]
  · have found : (bareUartFdt.findByCompatible uartCompatible 101 (memoryAt 0x40000000 bareUart)).1 = .value ⟨40⟩ := by
      decide +kernel
    have base : (regBase bareUartFdt ⟨40⟩ 101 (memoryAt 0x40000000 bareUart)).1 = .value (0 * 2 ^ 32) := by decide +kernel
    have no_aic : (bareUartFdt.findByCompatible aicCompatible 101 (memoryAt 0x40000000 bareUart)).1 = .missing := by
      decide +kernel
    have no_fb : (bareUartFdt.findByCompatible fbCompatible 101 (memoryAt 0x40000000 bareUart)).1 = .missing := by decide +kernel
    have ready := Mmu.boot_ready Mmu.sampleLayout (fun _ => 0) fun _ _ _ => rfl
    obtain ⟨mmu, accepted⟩ := ready.accepts (by decide) .device 0 (by decide)
    let after : Board := ⟨{ blank with uartBase := kernelBase }, mmu⟩
    refine ⟨after, (init_value 0 _ _).mpr ⟨after, ?_, after, ?_, ?_⟩, rfl⟩
    · unfold discoverUart
      rw [bind_result, attempt_result, found]
      dsimp only
      rw [bind_value _ base, map_base_run _ (by decide), accepted]
      rfl
    · unfold discoverAic
      rw [bind_result, attempt_result, no_aic]
      rfl
    · unfold initFromFdt
      rw [bind_result, bind_result, attempt_result, no_fb]
      rfl

end Apple

end Opal
