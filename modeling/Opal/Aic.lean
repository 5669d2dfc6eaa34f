import Mathlib.Data.List.Range
import Mathlib.Data.List.Pairwise
import Mathlib.Data.Nat.Bitwise

set_option autoImplicit false

namespace Opal

-- usize and u32 values are Nat. A driver's stores are listed with their
-- addresses.
namespace Aic

def aicInfo : Nat := 0x0004

def targetCpu : Nat := 0x3000

def eventTypeIrq : Nat := 1

def eventType (event : Nat) : Nat := event >>> 16 &&& 0xFF

def eventNum (event : Nat) : Nat := event &&& 0xFFFF

structure Store where
  addr : Nat
  val : Nat
  deriving DecidableEq, Repr

end Aic

structure Aic where
  base : Nat
  nrIrq : Nat
  deriving DecidableEq, Repr

namespace Aic

def new (base : Nat) : Aic := ⟨base, 0⟩

def numBanks (nrIrq : Nat) : Nat := (nrIrq + 31) / 32

def maskSetOff (nrIrq : Nat) : Nat := targetCpu + nrIrq * 4 + numBanks nrIrq * 4 * 2

def maskClrOff (nrIrq : Nat) : Nat := maskSetOff nrIrq + numBanks nrIrq * 4

variable (aic : Aic)

def write32 (off val : Nat) : Store := ⟨aic.base + off, val⟩

def init (info : Nat) : Aic × List Store :=
  let aic := { aic with nrIrq := info &&& 0xFFFF }
  let nr := aic.nrIrq
  let numBanks := numBanks nr
  let swSet := targetCpu + nr * 4
  let swClr := swSet + numBanks * 4
  let maskSet := maskSetOff nr
  (aic, ((List.range numBanks).map fun i => aic.write32 (maskSet + i * 4) 0xFFFFFFFF) ++
    ((List.range numBanks).map fun i => aic.write32 (swClr + i * 4) 0xFFFFFFFF) ++
    (List.range nr).map fun i => aic.write32 (targetCpu + i * 4) 1)

def unmaskIrq (irq : Nat) : Store :=
  let bank := irq / 32
  let bit := 1 <<< (irq % 32)
  let maskClr := maskClrOff aic.nrIrq
  aic.write32 (maskClr + bank * 4) bit

def maskIrq (irq : Nat) : Store :=
  let bank := irq / 32
  let bit := 1 <<< (irq % 32)
  let maskSet := maskSetOff aic.nrIrq
  aic.write32 (maskSet + bank * 4) bit

-- The stores that handle_fiq makes to the controller. event is what AIC_EVENT
-- reads.
def handleFiq (timerFired : Bool) (aicBase event : Nat) : List Store :=
  if timerFired then []
  else if aicBase ≠ 0 then
    let aic := new aicBase
    if event ≠ 0 then
      if eventType event = eventTypeIrq then [aic.unmaskIrq (eventNum event)] else []
    else []
  else []

structure Block where
  start : Nat
  words : Nat
  deriving DecidableEq, Repr

def Block.Has (block : Block) (off : Nat) : Prop := ∃ i, i < block.words ∧ off = block.start + i * 4

def Block.Apart (a b : Block) : Prop := a.start + a.words * 4 ≤ b.start ∨ b.start + b.words * 4 ≤ a.start

def targets (n : Nat) : Block := ⟨targetCpu, n⟩

def swSet (n : Nat) : Block := ⟨targetCpu + n * 4, numBanks n⟩

def swClr (n : Nat) : Block := ⟨targetCpu + n * 4 + numBanks n * 4, numBanks n⟩

def maskSet (n : Nat) : Block := ⟨maskSetOff n, numBanks n⟩

def maskClr (n : Nat) : Block := ⟨maskClrOff n, numBanks n⟩

theorem Block.Apart.not_has {a b : Block} (apart : a.Apart b) (off : Nat) (here : a.Has off) : ¬ b.Has off := by
  obtain ⟨i, i_small, at_a⟩ := here
  rintro ⟨j, j_small, at_b⟩
  unfold Block.Apart at apart
  omega

theorem blocks_apart (n : Nat) : [targets n, swSet n, swClr n, maskSet n, maskClr n].Pairwise Block.Apart := by
  simp only [List.pairwise_cons, List.mem_cons, List.not_mem_nil, or_false, forall_eq_or_imp, forall_eq, Block.Apart, targets,
    swSet, swClr, maskSet, maskClr, maskClrOff, maskSetOff]
  refine ⟨⟨?_, ?_, ?_, ?_⟩, ⟨?_, ?_, ?_⟩, ⟨?_, ?_⟩, ?_, fun _ no => no.elim, .nil⟩
  all_goals omega

theorem bank_inside (n irq : Nat) (known : irq < n) : irq / 32 < numBanks n := by
  unfold numBanks
  omega

theorem mask_has (n irq : Nat) (known : irq < n) :
    (maskSet n).Has (maskSetOff n + irq / 32 * 4) ∧ (maskClr n).Has (maskClrOff n + irq / 32 * 4) :=
  ⟨⟨irq / 32, bank_inside n irq known, rfl⟩, ⟨irq / 32, bank_inside n irq known, rfl⟩⟩

theorem bank_bit_inj (start a b : Nat) (place : start + a / 32 * 4 = start + b / 32 * 4)
    (bit : 1 <<< (a % 32) = 1 <<< (b % 32)) : a = b := by
  rw [Nat.one_shiftLeft, Nat.one_shiftLeft] at bit
  have same := Nat.pow_right_injective (le_refl 2) bit
  omega

theorem init_stores (info : Nat) (store : Store) :
    store ∈ (aic.init info).2 ↔
      (∃ i, i < numBanks (info &&& 0xFFFF) ∧ store = ⟨aic.base + (maskSetOff (info &&& 0xFFFF) + i * 4), 0xFFFFFFFF⟩) ∨
        (∃ i, i < numBanks (info &&& 0xFFFF) ∧
          store = ⟨aic.base + ((swClr (info &&& 0xFFFF)).start + i * 4), 0xFFFFFFFF⟩) ∨
          ∃ i, i < info &&& 0xFFFF ∧ store = ⟨aic.base + (targetCpu + i * 4), 1⟩ := by
  simp only [init, List.mem_append, List.mem_map, List.mem_range, write32, swClr, eq_comm (a := store), or_assoc]

-- The arrays lie apart, each call keeps to its array with a word and a bit of
-- its own for each interrupt, and init masks them all without touching
-- SW_SET or MASK_CLR.
theorem register_arithmetic (n : Nat) :
    [targets n, swSet n, swClr n, maskSet n, maskClr n].Pairwise Block.Apart ∧
      (∀ aic : Aic, aic.nrIrq = n →
        (∀ irq, irq < n →
          (∃ off, (maskSet n).Has off ∧ (aic.maskIrq irq).addr = aic.base + off) ∧
            ∃ off, (maskClr n).Has off ∧ (aic.unmaskIrq irq).addr = aic.base + off) ∧
          ∀ a b, a < n → b < n → aic.maskIrq a = aic.maskIrq b ∨ aic.unmaskIrq a = aic.unmaskIrq b → a = b) ∧
        ∀ (aic : Aic) (info : Nat), info &&& 0xFFFF = n →
          (aic.init info).1.nrIrq = n ∧
            (∀ irq, irq < n → ∃ store ∈ (aic.init info).2,
              store.addr = aic.base + (maskSetOff n + irq / 32 * 4) ∧ store.val.testBit (irq % 32) = true) ∧
              ∀ store ∈ (aic.init info).2, ∃ off, store.addr = aic.base + off ∧
                ((maskSet n).Has off ∨ (swClr n).Has off ∨ (targets n).Has off) := by
  refine ⟨blocks_apart n, ?_, ?_⟩
  · rintro aic rfl
    refine ⟨fun irq known => ?_, fun a b _ _ same => ?_⟩
    · obtain ⟨set, clear⟩ := mask_has aic.nrIrq irq known
      exact ⟨⟨_, set, rfl⟩, ⟨_, clear, rfl⟩⟩
    · simp only [maskIrq, unmaskIrq, write32, Store.mk.injEq] at same
      rcases same with ⟨place, bit⟩ | ⟨place, bit⟩
      · exact bank_bit_inj (aic.base + maskSetOff aic.nrIrq) a b (by omega) bit
      · exact bank_bit_inj (aic.base + maskClrOff aic.nrIrq) a b (by omega) bit
  · rintro aic info rfl
    refine ⟨rfl, fun irq known => ?_, fun store member => ?_⟩
    · refine ⟨_, (init_stores aic info _).mpr (.inl ⟨irq / 32, bank_inside _ irq known, rfl⟩), rfl, ?_⟩
      have bit : irq % 32 < 32 := Nat.mod_lt irq (by decide)
      change Nat.testBit (2 ^ 32 - 1) (irq % 32) = true
      rw [Nat.testBit_two_pow_sub_one]
      exact decide_eq_true bit
    · rcases (init_stores aic info store).mp member with ⟨i, small, rfl⟩ | ⟨i, small, rfl⟩ | ⟨i, small, rfl⟩
      · exact ⟨_, rfl, .inl ⟨i, small, rfl⟩⟩
      · exact ⟨_, rfl, .inr (.inl ⟨i, small, rfl⟩)⟩
      · exact ⟨_, rfl, .inr (.inr ⟨i, small, rfl⟩)⟩

-- The store that lets an interrupt in again on a controller that has been
-- brought up.
structure Reenables (aic : Aic) (num : Nat) (stores : List Store) : Prop where
  store : stores = [⟨aic.base + (maskClrOff aic.nrIrq + 4 * (num / 32)), 2 ^ (num % 32)⟩]
  apart : ∀ store ∈ stores, ∀ block ∈ [targets aic.nrIrq, swSet aic.nrIrq, swClr aic.nrIrq, maskSet aic.nrIrq],
    ∀ off, block.Has off → store.addr ≠ aic.base + off

theorem unmask_reenables (num : Nat) (known : num < aic.nrIrq) : aic.Reenables num [aic.unmaskIrq num] := by
  have here := (mask_has aic.nrIrq num known).2
  have apart := blocks_apart aic.nrIrq
  rw [show [targets aic.nrIrq, swSet aic.nrIrq, swClr aic.nrIrq, maskSet aic.nrIrq, maskClr aic.nrIrq] =
    [targets aic.nrIrq, swSet aic.nrIrq, swClr aic.nrIrq, maskSet aic.nrIrq] ++ [maskClr aic.nrIrq] from rfl,
    List.pairwise_append] at apart
  refine ⟨?_, fun store member block other off has same => ?_⟩
  · rw [unmaskIrq, write32, Nat.one_shiftLeft, Nat.mul_comm 4]
  · rw [List.mem_singleton.mp member] at same
    have place : off = maskClrOff aic.nrIrq + num / 32 * 4 := Nat.add_left_cancel same.symm
    exact (apart.2.2 block other _ (List.mem_singleton.mpr rfl)).not_has off has (place ▸ here)

theorem mask_clr_off_zero : maskClrOff 0 = targetCpu := by decide

-- handle_fiq makes an Aic of its own, whose count is 0.
theorem fiq_store (base event : Nat) (published : base ≠ 0) (irq : eventType event = eventTypeIrq) :
    handleFiq false base event = [⟨base + (targetCpu + 4 * (eventNum event / 32)), 2 ^ (eventNum event % 32)⟩] := by
  have some_ : event ≠ 0 := by
    rintro rfl
    exact absurd irq (by decide)
  rw [handleFiq, if_neg Bool.false_ne_true, if_pos published]
  dsimp only
  rw [if_pos some_, if_pos irq, unmaskIrq, write32, Nat.one_shiftLeft, Nat.mul_comm 4, new,
    mask_clr_off_zero]

-- The interrupt stays masked: what handle_fiq writes is the affinity of
-- another one.
theorem fiq_never_reenables (base info event : Nat) (published : base ≠ 0) (irq : eventType event = eventTypeIrq)
    (known : eventNum event < info &&& 0xFFFF) :
    let aic := ((new base).init info).1
    ¬ aic.Reenables (eventNum event) (handleFiq false aic.base event) ∧
      ∃ store off, handleFiq false aic.base event = [store] ∧ (targets aic.nrIrq).Has off ∧ store.addr = aic.base + off := by
  intro aic
  have stores : handleFiq false aic.base event = _ := fiq_store base event published irq
  have nr : aic.nrIrq = info &&& 0xFFFF := rfl
  have target : (targets aic.nrIrq).Has (targetCpu + 4 * (eventNum event / 32)) := by
    refine ⟨eventNum event / 32, ?_, by rw [Nat.mul_comm 4]; rfl⟩
    change eventNum event / 32 < aic.nrIrq
    omega
  rw [stores]
  refine ⟨fun same => ?_, _, _, rfl, target, rfl⟩
  exact same.apart _ (List.mem_singleton.mpr rfl) (targets aic.nrIrq) List.mem_cons_self _ target rfl

theorem fiq_writes_affinity :
    let aic := ((new 0xFFFF00023B100000).init 896).1
    handleFiq false aic.base 0x10005 = [⟨0xFFFF00023B103000, 32⟩] ∧
      ¬ aic.Reenables (eventNum 0x10005) (handleFiq false aic.base 0x10005) := by
  intro aic
  have stores : handleFiq false aic.base 0x10005 = [⟨0xFFFF00023B103000, 32⟩] := by decide
  refine ⟨stores, fun same => ?_⟩
  have store := same.store
  rw [stores] at store
  exact absurd store (by decide)

theorem fiq_never_reenables_five :
    let aic := ((new 0xFFFF00023B100000).init 896).1
    ¬ aic.Reenables (eventNum 0x10005) (handleFiq false aic.base 0x10005) ∧
      ∃ store off, handleFiq false aic.base 0x10005 = [store] ∧ (targets aic.nrIrq).Has off ∧ store.addr = aic.base + off :=
  fiq_never_reenables 0xFFFF00023B100000 896 0x10005 (by decide) (by decide) (by decide)

end Aic

end Opal
