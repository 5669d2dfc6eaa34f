import Opal.Vectors
import Opal.Mmu
import Mathlib.Data.List.MinMax

set_option autoImplicit false

namespace Opal

-- The interrupt controller behind its registers, as the driver's comments
-- describe them. latch keeps the rising edges of edge-triggered interrupts.
structure Gic where
  distributor : Bool
  igroupr : Nat → BitVec 32
  isenabler : Nat → BitVec 32
  ipriorityr : Nat → Nat
  itargetsr : Nat → Nat
  icfgr : Nat → BitVec 32
  typer : BitVec 32
  line : Nat → Bool
  latch : Nat → Bool
  active : Nat → Bool
  interface : Bool
  pmr : Nat
  bpr : Nat

namespace Gic

section
variable (g : Gic)

def enabled (id : Nat) : Bool := (g.isenabler (id / 32)).getLsbD (id % 32)

def edge (id : Nat) : Bool := (g.icfgr (id / 16)).getLsbD (2 * (id % 16) + 1)

def pending (id : Nat) : Bool := if g.edge id then g.latch id else g.line id

-- What the interface may show the CPU: nothing while an interrupt of the same
-- or a higher priority is in service.
def presents (id : Nat) : Bool :=
  g.distributor && g.interface && g.enabled id && g.pending id && decide (g.ipriorityr id < g.pmr) &&
    (List.range 1020).all fun other => !g.active other || decide (g.ipriorityr id < g.ipriorityr other)

-- The most urgent one, if any: a low value is a high priority.
def highest : Option Nat := ((List.range 1020).filter g.presents).argmin g.ipriorityr

-- A device raises or lowers its line.
def signal (id : Nat) (level : Bool) : Gic :=
  { g with line := Function.update g.line id level, latch := Function.update g.latch id (g.latch id || (level && !g.line id)) }

def readDistributor (off : Nat) : BitVec 32 :=
  if off = 0x0004 then g.typer
  else if 0x0080 ≤ off ∧ off < 0x0100 then g.igroupr ((off - 0x0080) / 4)
  else if 0x0C00 ≤ off ∧ off < 0x0D00 then g.icfgr ((off - 0x0C00) / 4)
  else 0

-- The two enable registers share their bits: ones set, or ones clear.
def writeDistributor (off : Nat) (val : BitVec 32) : Gic :=
  if off = 0x0000 then { g with distributor := val.getLsbD 0 }
  else if 0x0080 ≤ off ∧ off < 0x0100 then { g with igroupr := Function.update g.igroupr ((off - 0x0080) / 4) val }
  else if 0x0100 ≤ off ∧ off < 0x0180 then
    let bank := (off - 0x0100) / 4
    { g with isenabler := Function.update g.isenabler bank (g.isenabler bank ||| val) }
  else if 0x0180 ≤ off ∧ off < 0x0200 then
    let bank := (off - 0x0180) / 4
    { g with isenabler := Function.update g.isenabler bank (g.isenabler bank &&& ~~~val) }
  else if 0x0C00 ≤ off ∧ off < 0x0D00 then { g with icfgr := Function.update g.icfgr ((off - 0x0C00) / 4) val }
  else g

def writeDistributorByte (off val : Nat) : Gic :=
  if 0x0400 ≤ off ∧ off < 0x0800 then { g with ipriorityr := Function.update g.ipriorityr (off - 0x0400) val }
  else if 0x0800 ≤ off ∧ off < 0x0C00 then { g with itargetsr := Function.update g.itargetsr (off - 0x0800) val }
  else g

-- The acknowledge register hands out the most urgent interrupt, or 1023.
def readInterface (off : Nat) : Nat × Gic :=
  if off = 0x000C then
    match g.highest with
    | none => (1023, g)
    | some id => (id, { g with latch := Function.update g.latch id false, active := Function.update g.active id true })
  else (0, g)

def writeInterface (off val : Nat) : Gic :=
  if off = 0x0000 then { g with interface := val.testBit 0 }
  else if off = 0x0004 then { g with pmr := val }
  else if off = 0x0008 then { g with bpr := val }
  else if off = 0x0010 then { g with active := Function.update g.active val false }
  else g

end

end Gic

-- hal/gicv2.rs. A register is named by its offset: from gicd for the
-- distributor, from gicc for the CPU interface.
namespace GicV2

def gicdCtlr : Nat := 0x0000
def gicdTyper : Nat := 0x0004
def gicdIgroupr : Nat := 0x0080
def gicdIsenabler : Nat := 0x0100
def gicdIpriorityr : Nat := 0x0400
def gicdItargetsr : Nat := 0x0800
def gicdIcfgr : Nat := 0x0C00

def giccCtlr : Nat := 0x0000
def giccPmr : Nat := 0x0004
def giccBpr : Nat := 0x0008
def giccIar : Nat := 0x000C
def giccEoir : Nat := 0x0010

section
variable (g : Gic)

def init : Gic :=
  let g := g.writeDistributor gicdCtlr 1
  let igrp := g.readDistributor gicdIgroupr
  let g := g.writeDistributor gicdIgroupr (igrp &&& ~~~((1 : BitVec 32) <<< timerIrq))
  let g := g.writeDistributorByte (gicdIpriorityr + timerIrq) 0x80
  let g := g.writeDistributorByte (gicdItargetsr + timerIrq) 0x01
  let icfgrOffset := gicdIcfgr + (timerIrq / 16) * 4
  let icfgrVal := g.readDistributor icfgrOffset
  let shift := 2 * (timerIrq % 16)
  let g := g.writeDistributor icfgrOffset (icfgrVal ||| (0b10 : BitVec 32) <<< shift)
  let g := g.writeDistributor gicdIsenabler ((1 : BitVec 32) <<< timerIrq)
  let g := g.writeInterface giccPmr 0xFF
  let g := g.writeInterface giccBpr 0
  g.writeInterface giccCtlr 1

def enableIrq (id : Nat) : Gic := g.writeDistributor (gicdIsenabler + id / 32 * 4) ((1 : BitVec 32) <<< (id % 32))

def acknowledge : Nat × Gic := g.readInterface giccIar

def endInterrupt (id : Nat) : Gic := g.writeInterface giccEoir id

def typer : BitVec 32 := g.readDistributor gicdTyper

end

-- board::virt::init
def boardInit (g : Gic) : Gic := enableIrq (init g) timerIrq

section
variable (g : Gic)

theorem enable_irq_eq (id : Nat) (known : id < 1024) :
    enableIrq g id =
      { g with isenabler := Function.update g.isenabler (id / 32) (g.isenabler (id / 32) ||| (1 : BitVec 32) <<< (id % 32)) } := by
  have bank : (gicdIsenabler + id / 32 * 4 - 0x0100) / 4 = id / 32 := by
    unfold gicdIsenabler
    omega
  unfold enableIrq Gic.writeDistributor
  rw [bank]
  unfold gicdIsenabler
  rw [if_neg (by omega), if_neg (by omega), if_pos (by omega)]

theorem bit_of_id (id other : Nat) (same : other / 32 = id / 32) :
    ((1 : BitVec 32) <<< (id % 32)).getLsbD (other % 32) = decide (other = id) := by
  have inside : other % 32 < 32 := Nat.mod_lt _ (by decide)
  rw [BitVec.getLsbD_shiftLeft]
  by_cases is : other = id
  · simp [is, Nat.mod_lt id (by decide : 0 < 32)]
  · have apart : ¬ other % 32 = id % 32 := by omega
    by_cases below : other % 32 < id % 32
    · simp [is, below]
    · simp [is, below, BitVec.getLsbD_one]
      omega

theorem enable_irq_enabled (id other : Nat) (known : id < 1024) :
    (enableIrq g id).enabled other = (g.enabled other || decide (other = id)) := by
  rw [enable_irq_eq g id known, Gic.enabled, Gic.enabled]
  by_cases bank : other / 32 = id / 32
  · simp only [bank, Function.update_self, BitVec.getLsbD_or, bit_of_id id other bank]
  · have apart : ¬ other = id := fun is => bank (by rw [is])
    simp [Function.update_of_ne bank, apart]

theorem init_eq :
    init g =
      { g with
        distributor := true
        igroupr := Function.update g.igroupr 0 (g.igroupr 0 &&& ~~~((1 : BitVec 32) <<< 27))
        isenabler := Function.update g.isenabler 0 (g.isenabler 0 ||| (1 : BitVec 32) <<< 27)
        ipriorityr := Function.update g.ipriorityr 27 0x80
        itargetsr := Function.update g.itargetsr 27 0x01
        icfgr := Function.update g.icfgr 1 (g.icfgr 1 ||| (0b10 : BitVec 32) <<< 22)
        interface := true
        pmr := 0xFF
        bpr := 0 } := by
  simp [init, Gic.writeDistributor, Gic.writeDistributorByte, Gic.writeInterface, Gic.readDistributor, gicdCtlr, gicdIgroupr,
    gicdIpriorityr, gicdItargetsr, gicdIcfgr, gicdIsenabler, giccPmr, giccBpr, giccCtlr, timerIrq]

end

end GicV2

namespace Gic

-- Out of reset. Software-generated interrupts may be enabled for good, but
-- nobody has raised one.
structure Reset (g : Gic) : Prop where
  disabled : ∀ id, 16 ≤ id → g.enabled id = false
  unraised : ∀ id, id < 16 → g.latch id = false ∧ g.line id = false
  idle : ∀ id, g.active id = false
  low : g.line timerIrq = false

-- Ready to pass on the timer's interrupt and no other.
structure Up (g : Gic) : Prop where
  distributor : g.distributor = true
  interface : g.interface = true
  timer : g.enabled timerIrq = true
  edge : g.edge timerIrq = true
  urgent : g.ipriorityr timerIrq < g.pmr
  disabled : ∀ id, 16 ≤ id → id ≠ timerIrq → g.enabled id = false
  unraised : ∀ id, id < 16 → g.latch id = false ∧ g.line id = false
  idle : ∀ id, g.active id = false

section
variable {g : Gic}

theorem board_init_up (reset : g.Reset) : (GicV2.boardInit g).Up := by
  have known : timerIrq < 1024 := by decide
  have enabled (id : Nat) : (GicV2.boardInit g).enabled id = (g.enabled id || decide (id = timerIrq)) := by
    have once : (GicV2.init g).enabled id = (GicV2.enableIrq g timerIrq).enabled id := by
      rw [GicV2.enable_irq_eq g timerIrq known]
      rfl
    rw [GicV2.boardInit, GicV2.enable_irq_enabled _ timerIrq id known, once, GicV2.enable_irq_enabled g timerIrq id known,
      Bool.or_assoc, Bool.or_self]
  have rest : GicV2.boardInit g = GicV2.enableIrq (GicV2.init g) timerIrq := rfl
  rw [GicV2.enable_irq_eq _ timerIrq known, GicV2.init_eq] at rest
  refine ⟨?_, ?_, ?_, ?_, ?_, fun id high other => ?_, fun id low => ?_, fun id => ?_⟩
  · rw [rest]
  · rw [rest]
  · simp [enabled]
  · rw [rest]
    have trigger : ((0b10 : BitVec 32) <<< 22).getLsbD 23 = true := by decide
    have bank : timerIrq / 16 = 1 := by decide
    have bit : 2 * (timerIrq % 16) + 1 = 23 := by decide
    simp only [edge, bank, bit, Function.update_self, BitVec.getLsbD_or, trigger, Bool.or_true]
  · rw [rest]
    change Function.update g.ipriorityr 27 0x80 timerIrq < 0xFF
    rw [show timerIrq = 27 from rfl, Function.update_self]
    decide
  · simp [enabled, reset.disabled id high, other]
  · rw [rest]
    exact reset.unraised id low
  · rw [rest]
    exact reset.idle id

theorem presents_iff (up : g.Up) (id : Nat) : g.presents id = (decide (id = timerIrq) && g.latch timerIrq) := by
  have alone : ((List.range 1020).all fun other => !g.active other || decide (g.ipriorityr id < g.ipriorityr other)) = true :=
    List.all_eq_true.mpr fun other _ => by simp [up.idle other]
  rw [presents, up.distributor, up.interface, alone]
  by_cases is : id = timerIrq
  · simp [is, up.timer, pending, up.edge, up.urgent]
  · by_cases low : id < 16
    · have quiet : g.pending id = false := by
        obtain ⟨latch, line⟩ := up.unraised id low
        simp [pending, latch, line]
      simp [quiet, is]
    · simp [up.disabled id (by omega) is, is]

theorem highest_eq (up : g.Up) : g.highest = if g.latch timerIrq then some timerIrq else none := by
  rw [highest, funext (presents_iff up)]
  cases latched : g.latch timerIrq with
  | false => simp
  | true =>
      simp only [Bool.and_true, if_true]
      have among : timerIrq ∈ (List.range 1020).filter fun id => decide (id = timerIrq) :=
        List.mem_filter.mpr ⟨List.mem_range.mpr (by decide), decide_eq_true rfl⟩
      cases most : List.argmin g.ipriorityr ((List.range 1020).filter fun id => decide (id = timerIrq)) with
      | none =>
          rw [List.argmin_eq_none.mp most] at among
          cases among
      | some id =>
          have member := (List.mem_filter.mp (List.argmin_mem most)).2
          rw [of_decide_eq_true member]

theorem signal_up (level : Bool) (up : g.Up) : (g.signal timerIrq level).Up := by
  refine ⟨up.distributor, up.interface, up.timer, up.edge, up.urgent, up.disabled, fun id low => ?_, up.idle⟩
  have other : id ≠ timerIrq := fun is => absurd (is ▸ low) (by decide)
  exact ⟨(Function.update_of_ne other ..).trans (up.unraised id low).1, (Function.update_of_ne other ..).trans (up.unraised id low).2⟩

theorem acknowledge_latched (up : g.Up) (latched : g.latch timerIrq = true) :
    GicV2.acknowledge g =
      (timerIrq,
        { g with latch := Function.update g.latch timerIrq false, active := Function.update g.active timerIrq true }) := by
  have most : g.highest = some timerIrq := by rw [highest_eq up, if_pos latched]
  rw [GicV2.acknowledge, readInterface, if_pos (by decide), most]

theorem end_interrupt_eq (g : Gic) (id : Nat) :
    GicV2.endInterrupt g id = { g with active := Function.update g.active id false } := by
  simp [GicV2.endInterrupt, writeInterface, GicV2.giccEoir]

-- The GIC after one interrupt of the timer from first to last.
def served (g : Gic) : Gic :=
  { g with
    latch := Function.update g.latch timerIrq false
    active := Function.update (Function.update g.active timerIrq true) timerIrq false }

theorem served_up (up : g.Up) : g.served.Up := by
  refine ⟨up.distributor, up.interface, up.timer, up.edge, up.urgent, up.disabled, fun id low => ?_, fun id => ?_⟩
  · have other : id ≠ timerIrq := fun is => absurd (is ▸ low) (by decide)
    exact ⟨(Function.update_of_ne other ..).trans (up.unraised id low).1, (up.unraised id low).2⟩
  · by_cases is : id = timerIrq
    · simp [served, is]
    · simp [served, is, up.idle id]

end

end Gic

end Opal
