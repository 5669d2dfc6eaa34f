import Opal.Mmu
import Opal.RoundTrip

set_option autoImplicit false

namespace Opal

open Reading

namespace Fdt

open Mmu (ramBase ramSize)

def ramEnd : Nat := ramBase + ramSize

def fdtAt (addr : Nat) : Reading Bool :=
  if addr < ramBase ∨ addr ≥ ramEnd ∨ addr % 4 ≠ 0 then return false
  else do
    let va ← add kernelBase addr
    let raw ← fetch va 4
    return decide (fromBe raw = fdtMagic)

-- The high alias of a byte of RAM.
def InRam (address : Nat) : Prop := kernelBase + ramBase ≤ address ∧ address < kernelBase + ramEnd

-- A call reads this address.
def Touches {α : Type} (fuel : Nat) (mem : Nat → UInt8) (m : Reading α) (address : Nat) : Prop :=
  ∃ read ∈ (m fuel mem).2, read.Covers address

-- Every address that a call on an accepted blob reads is inside, for the nodes
-- that calls have returned.
structure Fdtr.Within (inside : Nat → Prop) (fdt : Fdtr) (fuel : Nat) (mem : Nat → UInt8) : Prop where
  root : ∀ a, Touches fuel mem fdt.root a → inside a
  find : ∀ path a, Touches fuel mem (fdt.find path) a → inside a
  findByCompatible : ∀ substr a, Touches fuel mem (fdt.findByCompatible substr) a → inside a
  reserves : ∀ a, Touches fuel mem fdt.reserves a → inside a
  dump : ∀ a, Touches fuel mem fdt.dump a → inside a
  fullName : ∀ node a, fdt.Obtains fuel mem node → Touches fuel mem (fdt.fullName node) a → inside a
  prop : ∀ node name a, fdt.Obtains fuel mem node → Touches fuel mem (fdt.prop node name) a → inside a
  compatible : ∀ node a, fdt.Obtains fuel mem node → Touches fuel mem (fdt.compatible node) a → inside a
  children : ∀ node a, fdt.Obtains fuel mem node → Touches fuel mem (fdt.children node >>= fdt.exhaust) a → inside a

-- new and everything done with its blob read RAM alone.
def StaysInRam (pa : Nat) (mem : Nat → UInt8) : Prop :=
  ∀ fuel, (∀ a, Touches fuel mem (Fdtr.new pa) a → InRam a) ∧
    ∀ fdt, (Fdtr.new pa fuel mem).1 = .value fdt → ∀ rounds, fdt.header.totalsize < rounds →
      fdt.Within InRam rounds mem

-- The totalsize word of a blob.
def totalsizeAt (pa : Nat) (mem : Nat → UInt8) : Nat := fromBe ((addresses (kernelBase + pa + 4) 4).map mem)

-- How far past its start a blob with this totalsize can be read: of a header
-- cut short, the words that are whole, and the first two in any case.
def extent (totalsize : Nat) : Nat := if totalsize < headerSize then max 8 (totalsize / 4 * 4) else totalsize

section
variable {fuel : Nat} {mem : Nat → UInt8}

theorem safe_header_word {good : Load → Prop} (base offset bound : Nat) (room : base + offset + 4 < wordEnd)
    (within : offset + 4 ≤ bound → good ⟨base + offset, 4⟩) :
    Safe good fuel mem (readBeU32 base offset bound) fun n =>
      n = fromBe ((addresses (base + offset) 4).map mem) := by
  refine safe_bind (safe_checked_add offset 4) fun stop fits => ?_
  split_ifs with high
  · exact safe_missing _
  · refine safe_bind (safe_add base offset (by omega)) fun address at_ => ?_
    have loads : Safe good fuel mem (fetch address 4) fun raw => raw = (addresses (base + offset) 4).map mem := by
      rw [at_]
      exact ⟨(safe_fetch (base + offset) 4 (within (by omega))).1, rfl⟩
    refine safe_bind loads fun raw same => safe_pure _ _ ?_
    rw [same]

-- A load of the first bytes from pa on.
def Below (pa size : Nat) (read : Load) : Prop :=
  kernelBase + pa ≤ read.start ∧ read.start + read.width ≤ kernelBase + pa + size

theorem safe_new (pa : Nat) (low : pa < ramEnd) :
    Safe (Below pa (extent (totalsizeAt pa mem))) fuel mem (Fdtr.new pa)
      fun fdt => fdt.base = kernelBase + pa ∧ fdt.header.totalsize = totalsizeAt pa mem := by
  have room : kernelBase + pa + 44 < wordEnd := by
    have base : kernelBase = 0xFFFF000000000000 := rfl
    have end_ : ramEnd = 0x60000000 := rfl
    unfold wordEnd
    omega
  have first : 8 ≤ extent (totalsizeAt pa mem) := by
    unfold extent
    have size : headerSize = 40 := rfl
    split_ifs <;> omega
  refine safe_bind (safe_add kernelBase pa (by omega)) fun base at_ => ?_
  rw [at_]
  refine safe_bind (safe_header_word (kernelBase + pa) 0 headerSize (by omega) fun _ => ⟨by dsimp only; omega, by dsimp only; omega⟩)
    fun magic _ => ?_
  split_ifs
  · exact safe_missing _
  refine safe_bind (safe_header_word (kernelBase + pa) 4 headerSize (by omega) fun _ => ⟨by dsimp only; omega, by dsimp only; omega⟩)
    fun totalsize same => ?_
  have whole : totalsize = totalsizeAt pa mem := same
  rw [whole]
  have word : ∀ offset, offset % 4 = 0 → offset + 4 ≤ headerSize →
      Safe (Below pa (extent (totalsizeAt pa mem))) fuel mem
        (readBeU32 (kernelBase + pa) offset (totalsizeAt pa mem)) fun _ => True := by
    intro offset aligned header
    have size : headerSize = 40 := rfl
    refine (safe_header_word (kernelBase + pa) offset _ (by omega) fun fits => ⟨by dsimp only; omega, ?_⟩).weaken
      fun _ _ => trivial
    unfold extent
    dsimp only
    split_ifs <;> omega
  refine safe_bind (word 8 (by decide) (by decide)) fun offDtStruct _ => ?_
  refine safe_bind (word 12 (by decide) (by decide)) fun offDtStrings _ => ?_
  refine safe_bind (word 16 (by decide) (by decide)) fun offMemRsvmap _ => ?_
  refine safe_bind (word 20 (by decide) (by decide)) fun version _ => ?_
  refine safe_bind (word 24 (by decide) (by decide)) fun lastCompVersion _ => ?_
  refine safe_bind (word 28 (by decide) (by decide)) fun bootCpuidPhys _ => ?_
  refine safe_bind (word 32 (by decide) (by decide)) fun sizeDtStrings _ => ?_
  refine safe_bind (word 36 (by decide) (by decide)) fun sizeDtStruct _ => ?_
  refine safe_bind (safe_checked_add _ _) fun structEnd _ => ?_
  refine safe_bind (safe_checked_add _ _) fun stringsEnd _ => ?_
  split_ifs
  · exact safe_missing _
  · exact safe_missing _
  · exact safe_pure _ _ ⟨rfl, rfl⟩

theorem within_of_fits (pa : Nat) (low : ramBase ≤ pa) (high : pa < ramEnd)
    (fits : pa + extent (totalsizeAt pa mem) ≤ ramEnd) : StaysInRam pa mem := by
  intro fuel
  have safe := @safe_new fuel mem pa high
  refine ⟨fun a touched => ?_, fun fdt accepted rounds enough => ?_⟩
  · obtain ⟨read, member, covers⟩ := touched
    obtain ⟨above, below_⟩ := safe.1 read member
    exact ⟨le_trans (by omega) covers.1, Nat.lt_of_lt_of_le covers.2 (by omega)⟩
  · obtain ⟨base, total⟩ := safe.ensures fdt accepted
    have end_ : ramEnd = 0x60000000 := rfl
    have kernel : kernelBase = 0xFFFF000000000000 := rfl
    have cap : totalsizeAt pa mem ≤ extent (totalsizeAt pa mem) + 4 := by
      unfold extent
      split_ifs <;> omega
    have sound := new_sound pa fdt accepted (by unfold wordEnd; omega)
    have header : headerSize ≤ fdt.header.totalsize := by
      have past := sound.pastHeader
      have inside := sound.structEnd
      omega
    have whole : extent (totalsizeAt pa mem) = fdt.header.totalsize := by
      rw [total] at header ⊢
      rw [extent, if_neg (Nat.not_lt.mpr header)]
    have holds : ∀ node, fdt.Obtains rounds mem node → fdt.Holds node := obtained_holds sound enough
    have inside : ∀ {α : Type} {m : Reading α} {post : α → Prop}, Safe fdt.Inside rounds mem m post →
        ∀ a, Touches rounds mem m a → InRam a := by
      rintro α m post reads a ⟨read, member, covers⟩
      obtain ⟨above, below_⟩ := reads.1 read member
      rw [base] at above below_
      exact ⟨le_trans (by omega) covers.1, Nat.lt_of_lt_of_le covers.2 (by omega)⟩
    have within : ∀ {α : Type} {low : Nat} {m : Reading α} {post : α → Prop}, Safe (fdt.From low) rounds mem m post →
        ∀ a, Touches rounds mem m a → InRam a := fun reads => inside (reads.widen fun _ => sound.inside)
    have fair := sound.fair
    exact
      { root := within (safe_root fair (onward_self _))
        find := fun path => within (safe_find fair path (onward_self _) enough)
        findByCompatible := fun substr => within (safe_find_by_compatible fair substr (onward_self _) enough)
        reserves := inside ((safe_reserves sound enough).widen fun _ => Fdtr.Entry.inside)
        dump := within (safe_dump fair (onward_self _) enough)
        fullName := fun node a obtained => within (safe_full_name fair node (holds node obtained) (onward_self _) enough) a
        prop := fun node name a obtained => within (safe_prop fair node name (holds node obtained) (onward_self _) enough) a
        compatible := fun node a obtained => within (safe_compatible fair node (holds node obtained) (onward_self _) enough) a
        children := fun node a obtained => within (safe_exhaust fair node (holds node obtained) (onward_self _) enough) a }

end

section
variable {α β : Type} {fuel : Nat} {mem : Nat → UInt8} {m : Reading α} {f : α → Reading β} {a : Nat}

theorem touches_left (touched : Touches fuel mem m a) : Touches fuel mem (m >>= f) a := by
  obtain ⟨read, member, covers⟩ := touched
  exact ⟨read, reads_left f member, covers⟩

theorem touches_right {v : α} (value : (m fuel mem).1 = .value v) (touched : Touches fuel mem (f v) a) :
    Touches fuel mem (m >>= f) a := by
  obtain ⟨read, member, covers⟩ := touched
  exact ⟨read, reads_right value member, covers⟩

theorem touches_attempt (touched : Touches fuel mem m a) : Touches fuel mem (attempt m) a := by
  obtain ⟨read, member, covers⟩ := touched
  refine ⟨read, ?_, covers⟩
  rwa [attempt_log]

theorem touches_fetch (start width : Nat) (low : start ≤ a) (high : a < start + width) :
    Touches fuel mem (fetch start width) a := ⟨⟨start, width⟩, List.mem_singleton_self _, low, high⟩

end

section
variable {fuel : Nat} {mem : Nat → UInt8} {base offset bound : Nat}

theorem word_value (room : base + offset + 4 < wordEnd) (fits : offset + 4 ≤ bound) :
    (readBeU32 base offset bound fuel mem).1 = .value (fromBe ((addresses (base + offset) 4).map mem)) := by
  have stop : (checkedAdd offset 4 fuel mem).1 = .value (offset + 4) := by
    rw [checkedAdd, if_pos (by omega)]
    rfl
  have address : (add base offset fuel mem).1 = .value (base + offset) := by
    rw [add, if_pos (by omega)]
    rfl
  rw [readBeU32, bind_result, stop]
  dsimp only
  rw [if_neg (by omega), bind_result, address]
  rfl

theorem word_touches (room : base + offset + 4 < wordEnd) (fits : offset + 4 ≤ bound) :
    Touches fuel mem (readBeU32 base offset bound) (base + offset + 3) := by
  have stop : (checkedAdd offset 4 fuel mem).1 = .value (offset + 4) := by
    rw [checkedAdd, if_pos (by omega)]
    rfl
  have address : (add base offset fuel mem).1 = .value (base + offset) := by
    rw [add, if_pos (by omega)]
    rfl
  refine touches_right stop ?_
  rw [if_neg (by omega)]
  refine touches_right address (touches_left ?_)
  exact touches_fetch _ _ (by omega) (by omega)

theorem double_touches (room : base + offset + 8 < wordEnd) (fits : offset + 8 ≤ bound) :
    Touches fuel mem (readBeU64 base offset bound) (base + offset + 7) := by
  have stop : (checkedAdd offset 8 fuel mem).1 = .value (offset + 8) := by
    rw [checkedAdd, if_pos (by omega)]
    rfl
  have address : (add base offset fuel mem).1 = .value (base + offset) := by
    rw [add, if_pos (by omega)]
    rfl
  refine touches_right stop ?_
  rw [if_neg (by omega)]
  refine touches_right address (touches_left ?_)
  exact touches_fetch _ _ (by omega) (by omega)

theorem touches_last_word {α : Type} {f : Nat → Reading α} (room : base + offset + 4 < wordEnd)
    (aligned : offset % 4 = 0) (fits : offset + 4 ≤ bound)
    (later : offset + 8 ≤ bound → ∀ n, Touches fuel mem (f n) (base + bound / 4 * 4 - 1)) :
    Touches fuel mem (readBeU32 base offset bound >>= f) (base + bound / 4 * 4 - 1) := by
  by_cases more : offset + 8 ≤ bound
  · exact touches_right (word_value room fits) (later more _)
  · have last : base + bound / 4 * 4 - 1 = base + offset + 3 := by omega
    rw [last]
    exact touches_left (word_touches room fits)

end

-- A header whose reserve map is the last eight bytes of the blob.
def lateReserves (totalsize : Nat) : Header :=
  ⟨fdtMagic, totalsize, 40, 0, totalsize - 8, 17, 16, 0, 0, 0⟩

def lateBlob (pa totalsize : Nat) : Nat → UInt8 := memoryAt pa ((lateReserves totalsize).words.flatMap be32)

section
variable (pa : Nat)

theorem memory_at_reads (bytes : List UInt8) :
    (addresses (kernelBase + pa) bytes.length).map (memoryAt pa bytes) = bytes := by
  refine List.ext_getElem (by simp [addresses]) fun i inside inBytes => ?_
  simp only [addresses, List.getElem_map, List.getElem_range', memoryAt]
  have back : kernelBase + pa + 1 * i - (kernelBase + pa) = i := by omega
  rw [back, List.getD_eq_getElem?_getD, List.getElem?_eq_getElem inBytes, Option.getD_some]

theorem late_words (totalsize : Nat) :
    Fdtr.At ⟨kernelBase + pa, lateReserves totalsize⟩ (lateBlob pa totalsize) 0
      ((lateReserves totalsize).words.flatMap be32) :=
  memory_at_reads pa _

variable {totalsize : Nat} (small : totalsize < 2 ^ 32)
include small

theorem late_total : totalsizeAt pa (lateBlob pa totalsize) = totalsize := by
  have here := at_words 0 _ (late_words pa totalsize) 1 (by change 1 < 10; decide)
  have word : (addresses (kernelBase + pa + 4) 4).map (lateBlob pa totalsize) = be32 totalsize := here
  rw [totalsizeAt, word, from_be_be32, Nat.mod_eq_of_lt small]

omit small in
theorem late_magic : fromBe ((addresses (kernelBase + pa) 4).map (lateBlob pa totalsize)) = fdtMagic := by
  have here := at_words 0 _ (late_words pa totalsize) 0 (by change 0 < 10; decide)
  have word : (addresses (kernelBase + pa) 4).map (lateBlob pa totalsize) = be32 fdtMagic := here
  rw [word, from_be_be32]
  rfl

omit small in
theorem late_accepted (low : ramBase ≤ pa) (high : pa < ramEnd) (aligned : pa % 4 = 0) (fuel : Nat) :
    (fdtAt pa fuel (lateBlob pa totalsize)).1 = .value true := by
  have room : kernelBase + pa < wordEnd := by
    have base : kernelBase = 0xFFFF000000000000 := rfl
    have end_ : ramEnd = 0x60000000 := rfl
    unfold wordEnd
    omega
  have va : (add kernelBase pa fuel (lateBlob pa totalsize)).1 = .value (kernelBase + pa) := by
    rw [add, if_pos room]
    rfl
  rw [fdtAt, if_neg (by omega), bind_result, va]
  change Result.value (decide (fromBe ((addresses (kernelBase + pa) 4).map (lateBlob pa totalsize)) = fdtMagic)) = _
  rw [late_magic pa, decide_eq_true rfl]

-- Where the blob is past the end of RAM, so is one of the reads.
theorem late_leaves (high : pa < ramEnd) (past : ramEnd < pa + extent totalsize) :
    ¬ StaysInRam pa (lateBlob pa totalsize) := by
  intro stays
  have base : kernelBase = 0xFFFF000000000000 := rfl
  have end_ : ramEnd = 0x60000000 := rfl
  have top : wordEnd = 2 ^ 64 := rfl
  have size : headerSize = 40 := rfl
  by_cases short : totalsize < headerSize
  · have reads : Touches 0 (lateBlob pa totalsize) (Fdtr.new pa) (kernelBase + pa + max 8 (totalsize / 4 * 4) - 1) := by
      have start : (add kernelBase pa 0 (lateBlob pa totalsize)).1 = .value (kernelBase + pa) := by
        rw [add, if_pos (by omega)]
        rfl
      have magic := @word_value 0 (lateBlob pa totalsize) (kernelBase + pa) 0 headerSize (by omega) (by omega)
      have total := @word_value 0 (lateBlob pa totalsize) (kernelBase + pa) 4 headerSize (by omega) (by omega)
      rw [Nat.add_zero, late_magic pa] at magic
      change _ = Result.value (totalsizeAt pa (lateBlob pa totalsize)) at total
      rw [late_total pa small] at total
      refine touches_right start (touches_right magic ?_)
      rw [if_neg (not_not_intro rfl)]
      by_cases none_ : totalsize < 12
      · have last : kernelBase + pa + max 8 (totalsize / 4 * 4) - 1 = kernelBase + pa + 4 + 3 := by omega
        rw [last]
        exact touches_left (word_touches (by omega) (by omega))
      · have last : max 8 (totalsize / 4 * 4) = totalsize / 4 * 4 := by omega
        rw [last]
        refine touches_right total ?_
        refine touches_last_word (by omega) (by decide) (by omega) fun more _ => ?_
        refine touches_last_word (by omega) (by decide) (by omega) fun more _ => ?_
        refine touches_last_word (by omega) (by decide) (by omega) fun more _ => ?_
        refine touches_last_word (by omega) (by decide) (by omega) fun more _ => ?_
        refine touches_last_word (by omega) (by decide) (by omega) fun more _ => ?_
        refine touches_last_word (by omega) (by decide) (by omega) fun more _ => ?_
        exact touches_last_word (by omega) (by decide) (by omega) fun more _ => by omega
    have inside := ((stays 0).1 _ reads).2
    unfold extent at past
    rw [if_pos short] at past
    omega
  · have whole : extent totalsize = totalsize := if_neg short
    have sound : Fdtr.Sound ⟨kernelBase + pa, lateReserves totalsize⟩ :=
      { small
        structEnd := by change 40 + 0 ≤ totalsize; omega
        stringsEnd := Nat.zero_le _
        pastHeader := le_refl 40
        reserves := by change totalsize - 8 < 2 ^ 32; omega
        room := by change kernelBase + pa + totalsize < wordEnd; omega }
    have words : ∀ word ∈ (lateReserves totalsize).words, word < 2 ^ 32 := by
      simp only [lateReserves, Header.words, List.forall_mem_cons, fdtMagic]
      exact ⟨by omega, small, by omega, by omega, by omega, by omega, by omega, by omega, by omega, by omega,
        fun _ no => absurd no List.not_mem_nil⟩
    obtain ⟨fuel, accepted⟩ := yields_header sound rfl words rfl (late_words pa totalsize)
    have within := (stays fuel).2 _ (accepted fuel (le_refl _)) (totalsize + 1) (Nat.lt_succ_self _)
    have reads : Touches (totalsize + 1) (lateBlob pa totalsize)
        (Fdtr.reserves ⟨kernelBase + pa, lateReserves totalsize⟩) (kernelBase + pa + (totalsize - 8) + 7) := by
      refine touches_left (touches_left (touches_attempt (touches_left ?_)))
      exact double_touches (by change kernelBase + pa + (totalsize - 8) + 8 < wordEnd; omega)
        (by change totalsize - 8 + 8 ≤ totalsize; omega)
    have inside := (within.reserves _ reads).2
    omega

end

-- A blob at an address that fdt_at accepts is read within RAM, whatever the
-- memory holds, exactly when its totalsize ends it there.
theorem reads_stay_in_ram_iff (pa totalsize : Nat) (low : ramBase ≤ pa) (high : pa < ramEnd) (aligned : pa % 4 = 0)
    (small : totalsize < 2 ^ 32) :
    (∀ mem, (∀ fuel, (fdtAt pa fuel mem).1 = .value true) → totalsizeAt pa mem = totalsize → StaysInRam pa mem) ↔
      pa + extent totalsize ≤ ramEnd := by
  constructor
  · intro stays
    by_contra past
    exact late_leaves pa small high (Nat.not_le.mp past)
      (stays (lateBlob pa totalsize) (late_accepted pa low high aligned) (late_total pa small))
  · intro fits mem _ total
    exact within_of_fits pa low high (total.symm ▸ fits)

-- The header lies in the last bytes of RAM, the reserve map past them.
theorem late_reserves_leave_ram :
    (∀ fuel, (fdtAt 0x5FFFFF00 fuel (lateBlob 0x5FFFFF00 4096)).1 = .value true) ∧
      ¬ StaysInRam 0x5FFFFF00 (lateBlob 0x5FFFFF00 4096) :=
  ⟨late_accepted 0x5FFFFF00 (by decide) (by decide) (by decide),
    late_leaves 0x5FFFFF00 (by decide) (by decide) (by decide)⟩

theorem reads_stay_in_ram_first_page :
    (∀ mem, (∀ fuel, (fdtAt 0x40000000 fuel mem).1 = .value true) → totalsizeAt 0x40000000 mem = 4096 →
      StaysInRam 0x40000000 mem) ↔ 0x40000000 + extent 4096 ≤ ramEnd :=
  reads_stay_in_ram_iff 0x40000000 4096 (by decide) (by decide) (by decide) (by decide)

end Fdt

end Opal
