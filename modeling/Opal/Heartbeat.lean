import Opal.Clock
import Opal.Gicv2

set_option autoImplicit false

namespace Opal

-- The virtual timer with the GIC behind it, and TICK_PERIOD. ctl is
-- CNTV_CTL_EL0.ENABLE; nothing ever masks the timer there.
structure Clockwork where
  count : Nat
  cval : Nat
  ctl : Bool
  period : Nat
  gic : Gic

namespace Clockwork

section
variable (c : Clockwork)

def istatus : Bool := c.ctl && decide (c.cval ≤ c.count)

-- The timer's output is a line of the GIC.
def settled : Clockwork := { c with gic := c.gic.signal timerIrq c.istatus }

def pass (d : Nat) : Clockwork := { c with count := c.count + d }.settled

def arm (ticks : Nat) : Clockwork :=
  let c := { c with cval := (c.count + ticks) % 2 ^ 64 }.settled
  { c with ctl := true }.settled

def rearm (period : Nat) : Clockwork := { c with cval := (c.count + period) % 2 ^ 64 }.settled

def disable : Clockwork := { c with ctl := false }.settled

-- What tick, ticktest, drop_to_el0_preempt and drop_to_el0_sleep do to it.
def startTicking (freq : Nat) : Clockwork := { c with period := freq }.arm freq

-- handle_irq's part in it, with the id that it dispatches on.
def irq : Nat × Clockwork :=
  let (id, gic) := GicV2.acknowledge c.gic
  let c := { c with gic := gic }
  if id ≥ 1020 then
    if id = 1020 then (id, { c with gic := GicV2.endInterrupt c.gic id }) else (id, c)
  else
    let c := if id = timerIrq ∧ c.period > 0 then c.rearm c.period else c
    (id, { c with gic := GicV2.endInterrupt c.gic id })

end

end Clockwork

-- An exception with what the interrupt hardware shows its handler.
def Event.withDevice (device : Device) : Event → Event
  | .el1 t => .el1 { t with device := device }
  | .trap t => .trap { t with device := device }
  | event => event

-- The machine on QEMU's virt board.
structure Wired where
  machine : Machine
  clock : Clockwork

namespace Wired

-- Time passes, or the machine makes a step.
inductive Event where
  | pass (d : Nat)
  | machine (event : Opal.Event)

section
variable (spaces : AddressSpaces) (address : Static → UInt64) (freq : Nat)

def run (w : Wired) (event : Opal.Event) : Wired := { w with machine := w.machine.next spaces address event }

-- An IRQ comes when the GIC has one to present, and no FIQ ever. A handler
-- entered with OOPS up does not get to the GIC. on_el0_return disables the timer.
def exception (w : Wired) (event : Opal.Event) (t : Trap) : Wired :=
  match t.kind with
  | .irq =>
      if w.clock.gic.highest = none then w
      else if w.machine.enabled event && !w.machine.oops then
        { w.run spaces address (event.withDevice ⟨w.clock.irq.1, w.clock.istatus⟩) with clock := w.clock.irq.2 }
      else w.run spaces address event
  | .fiq => w
  | _ =>
      let after := w.run spaces address event
      if w.machine.mode = .el0 ∧ after.machine.mode = .monitor then { after with clock := w.clock.disable } else after

def next (w : Wired) : Event → Wired
  | .pass d => { w with clock := w.clock.pass d }
  | .machine event =>
      match event.exception with
      | some (_, t) => w.exception spaces address event t
      | none =>
          let after := w.run spaces address event
          match event with
          | .arm | .unmask =>
              if w.machine.enabled event then { after with clock := w.clock.startTicking freq } else after
          | _ => after

-- Power on: the timer is off, and board::init sets up the GIC.
def boot (cpu : Cpu) (clock : Clockwork) : Wired :=
  ⟨Machine.boot spaces cpu, { clock with ctl := false, period := 0, gic := GicV2.boardInit clock.gic }⟩

end

end Wired

namespace Clockwork

-- Everything a step can do to the timer and the GIC. Only the last is a tick.
inductive Moves (freq : Nat) (c : Clockwork) : Clockwork → Bool → Prop where
  | still : Moves freq c c false
  | pass (d : Nat) : Moves freq c (c.pass d) false
  | arm : Moves freq c (c.startTicking freq) false
  | disable : Moves freq c c.disable false
  | beat (latched : c.gic.latch timerIrq = true) : Moves freq c c.irq.2 true

-- What keeps the heart beating: the GIC is up, its line shows the timer's
-- condition, and a condition that is met has left its edge in the latch.
structure Beating (freq : Nat) (c : Clockwork) : Prop where
  up : c.gic.Up
  line : c.gic.line timerIrq = c.istatus
  latched : c.gic.line timerIrq = true → c.gic.latch timerIrq = true
  ticking : c.ctl = true → c.period = freq
  near : c.ctl = true → c.cval ≤ c.count + freq

section
variable {freq : Nat} {c : Clockwork}

theorem settled_line (c : Clockwork) : c.settled.gic.line timerIrq = c.istatus := by
  simp [settled, Gic.signal]

theorem settled_latch (c : Clockwork) :
    c.settled.gic.latch timerIrq = (c.gic.latch timerIrq || (c.istatus && !c.gic.line timerIrq)) := by
  simp [settled, Gic.signal]

theorem settled_low (c : Clockwork) (low : c.istatus = false) :
    c.settled.gic.line timerIrq = false ∧ c.settled.gic.latch timerIrq = c.gic.latch timerIrq := by
  rw [settled_line, settled_latch, low]
  exact ⟨rfl, by rw [Bool.false_and, Bool.or_false]⟩

theorem settled_latched (c : Clockwork) (before : c.gic.line timerIrq = true → c.gic.latch timerIrq = true)
    (high : c.settled.gic.line timerIrq = true) : c.settled.gic.latch timerIrq = true := by
  rw [settled_line] at high
  rw [settled_latch, high]
  cases line : c.gic.line timerIrq with
  | false => simp
  | true => simp [before line]

theorem settled_beating (c : Clockwork) (up : c.gic.Up) (before : c.gic.line timerIrq = true → c.gic.latch timerIrq = true)
    (ticking : c.ctl = true → c.period = freq) (near : c.ctl = true → c.cval ≤ c.count + freq) : c.settled.Beating freq :=
  ⟨Gic.signal_up _ up, settled_line c, settled_latched c before, ticking, near⟩

theorem pass_beating (d : Nat) (beating : c.Beating freq) : (c.pass d).Beating freq := by
  refine settled_beating { c with count := c.count + d } beating.up beating.latched beating.ticking fun on => ?_
  have near := beating.near on
  simp only
  omega

theorem pass_latch (d : Nat) :
    (c.gic.latch timerIrq = true → (c.pass d).gic.latch timerIrq = true) ∧
      ((c.pass d).gic.latch timerIrq = true → c.gic.latch timerIrq = true ∨ c.ctl = true ∧ c.cval ≤ c.count + d) := by
  have after := settled_latch { c with count := c.count + d }
  refine ⟨fun before => ?_, fun now => ?_⟩
  · rw [pass, after, before]
    rfl
  · rw [pass, after, Bool.or_eq_true, Bool.and_eq_true, istatus, Bool.and_eq_true, decide_eq_true_eq] at now
    exact now.imp_right And.left

theorem future (c : Clockwork) (period : Nat) (some_ : 0 < period) (room : c.count + period < 2 ^ 64) :
    istatus { c with cval := (c.count + period) % 2 ^ 64 } = false := by
  rw [istatus, Nat.mod_eq_of_lt room]
  simp only [Bool.and_eq_false_iff, decide_eq_false_iff_not]
  omega

theorem arm_spec (some_ : 0 < freq) (room : c.count + freq < 2 ^ 64) (beating : c.Beating freq) :
    (c.startTicking freq).Beating freq ∧ (c.startTicking freq).count = c.count ∧ (c.startTicking freq).cval = c.count + freq ∧
      (c.startTicking freq).ctl = true ∧ (c.startTicking freq).gic.latch timerIrq = c.gic.latch timerIrq := by
  generalize first_eq : settled { c with period := freq, cval := (c.count + freq) % 2 ^ 64 } = first
  have low := future { c with period := freq } freq some_ room
  obtain ⟨line, latch⟩ := settled_low { c with period := freq, cval := (c.count + freq) % 2 ^ 64 } low
  have up : first.gic.Up := by
    rw [← first_eq]
    exact Gic.signal_up _ beating.up
  have whole : c.startTicking freq = settled { first with ctl := true } := by
    rw [← first_eq]
    rfl
  have same : first.count = c.count ∧ first.cval = c.count + freq ∧ first.period = freq := by
    rw [← first_eq]
    exact ⟨rfl, Nat.mod_eq_of_lt room, rfl⟩
  rw [first_eq] at line latch
  have still : istatus { first with ctl := true } = false := by
    rw [istatus, same.1, same.2.1]
    simp only [Bool.true_and, decide_eq_false_iff_not]
    omega
  obtain ⟨_, after⟩ := settled_low { first with ctl := true } still
  rw [whole]
  refine ⟨settled_beating _ up (fun high => ?_) (fun _ => same.2.2) fun _ => ?_, same.1, same.2.1, rfl, after.trans latch⟩
  · rw [line] at high
    cases high
  · rw [same.1, same.2.1]

theorem disable_spec (beating : c.Beating freq) :
    c.disable.Beating freq ∧ c.disable.ctl = false ∧ c.disable.gic.latch timerIrq = c.gic.latch timerIrq := by
  have low : istatus { c with ctl := false } = false := rfl
  refine ⟨settled_beating { c with ctl := false } beating.up beating.latched (fun no => by cases no) (fun no => by cases no), rfl, ?_⟩
  exact (settled_low { c with ctl := false } low).2

theorem irq_eq (up : c.gic.Up) (latched : c.gic.latch timerIrq = true) :
    c.irq =
      (timerIrq,
        if c.period > 0 then { c with gic := c.gic.served }.rearm c.period else { c with gic := c.gic.served }) := by
  unfold irq
  rw [Gic.acknowledge_latched up latched]
  dsimp only
  rw [if_neg (by decide)]
  simp only [Gic.end_interrupt_eq, true_and]
  by_cases armed : c.period > 0
  · rw [if_pos armed, if_pos armed]
    rfl
  · rw [if_neg armed, if_neg armed]
    rfl

-- One interrupt, acknowledged, answered with the next comparison, and ended.
theorem irq_spec (some_ : 0 < freq) (room : c.count + freq < 2 ^ 64) (beating : c.Beating freq)
    (latched : c.gic.latch timerIrq = true) :
    c.irq.1 = timerIrq ∧ c.irq.2.Beating freq ∧ c.irq.2.count = c.count ∧ c.irq.2.ctl = c.ctl ∧
      c.irq.2.gic.latch timerIrq = false ∧ (c.ctl = true → c.irq.2.cval = c.count + freq) := by
  have up := Gic.served_up beating.up
  have clear : c.gic.served.latch timerIrq = false := by simp [Gic.served]
  rw [irq_eq beating.up latched]
  dsimp only
  by_cases armed : c.period > 0
  · rw [if_pos armed]
    have low : istatus { c with gic := c.gic.served, cval := (c.count + c.period) % 2 ^ 64 } = false := by
      by_cases on : c.ctl = true
      · have fits : c.count + c.period < 2 ^ 64 := by rwa [beating.ticking on]
        exact future { c with gic := c.gic.served } c.period armed fits
      · simp [istatus, on]
    obtain ⟨line, latch⟩ := settled_low _ low
    have after (on : c.ctl = true) : ({ c with gic := c.gic.served }.rearm c.period).cval = c.count + freq := by
      change (c.count + c.period) % 2 ^ 64 = _
      rw [beating.ticking on]
      exact Nat.mod_eq_of_lt room
    have kept : ({ c with gic := c.gic.served }.rearm c.period).Beating freq := by
      refine ⟨Gic.signal_up _ up, settled_line _, fun high => ?_, beating.ticking, fun on => (after on).le⟩
      rw [rearm, line] at high
      cases high
    exact ⟨rfl, kept, rfl, rfl, latch.trans clear, after⟩
  · rw [if_neg armed]
    have off : c.ctl = false := by
      cases on : c.ctl with
      | false => rfl
      | true =>
          have same := beating.ticking on
          omega
    have low : c.gic.line timerIrq = false := beating.line.trans (by simp [istatus, off])
    refine ⟨rfl, ⟨up, beating.line, fun high => ?_, beating.ticking, beating.near⟩, rfl, rfl, clear, fun on => ?_⟩
    · rw [show c.gic.served.line = c.gic.line from rfl, low] at high
      cases high
    · rw [off] at on
      cases on

theorem irq_count (c : Clockwork) : c.irq.2.count = c.count := by
  unfold irq
  dsimp only
  split_ifs
  · rfl
  · rfl
  · rfl
  · rfl

namespace Moves

variable {after : Clockwork} {ticked : Bool}

theorem beating (moves : c.Moves freq after ticked) (some_ : 0 < freq) (room : c.count + freq < 2 ^ 64) (beating : c.Beating freq) :
    after.Beating freq := by
  cases moves with
  | still => exact beating
  | pass d => exact pass_beating d beating
  | arm => exact (arm_spec some_ room beating).1
  | disable => exact (disable_spec beating).1
  | beat latched => exact (irq_spec some_ room beating latched).2.1

end Moves

-- The counter was at origin n ticks ago. Every tick has been paid for with a
-- period, the first one perhaps before that: in the latch from here, on the way
-- to the comparator from there.
structure Paced (freq origin n : Nat) (c : Clockwork) : Prop where
  since : origin ≤ c.count
  paid : n * freq ≤ c.count - origin + freq
  latched : c.gic.latch timerIrq = true → n * freq ≤ c.count - origin
  armed : c.ctl = true → c.gic.latch timerIrq = false → n * freq ≤ c.cval - origin

-- Nor has time been lost: at most late counts with every tick.
def Prompt (freq late origin n : Nat) (c : Clockwork) : Prop := c.cval ≤ origin + (n + 1) * freq + n * late

namespace Moves

variable {after : Clockwork} {ticked : Bool} {origin n : Nat}

theorem paced (moves : c.Moves freq after ticked) (some_ : 0 < freq) (room : c.count + freq < 2 ^ 64) (beating : c.Beating freq)
    (paced : c.Paced freq origin n) : after.Paced freq origin (n + ticked.toNat) := by
  obtain ⟨since, paid, latched, armed⟩ := paced
  cases moves with
  | still => exact ⟨since, paid, latched, armed⟩
  | pass d =>
      obtain ⟨kept, brought⟩ := pass_latch (c := c) d
      have count : (c.pass d).count = c.count + d := rfl
      refine ⟨?_, ?_, fun now => ?_, fun on clear => ?_⟩
      · rw [count]
        omega
      · rw [count]
        simp only [Bool.toNat_false, Nat.add_zero]
        omega
      · rw [count]
        simp only [Bool.toNat_false, Nat.add_zero]
        by_cases before : c.gic.latch timerIrq = true
        · have := latched before
          omega
        · obtain ⟨on, due⟩ := (brought now).resolve_left before
          have := armed on (Bool.eq_false_iff.mpr before)
          omega
      · refine armed on (Bool.eq_false_iff.mpr fun before => ?_)
        rw [kept before] at clear
        cases clear
  | arm =>
      obtain ⟨_, count, cval, _, latch⟩ := arm_spec some_ room beating
      simp only [Bool.toNat_false, Nat.add_zero]
      refine ⟨by rwa [count], by rwa [count], fun now => ?_, fun _ _ => ?_⟩
      · rw [count]
        exact latched (latch.symm.trans now)
      · rw [cval]
        omega
  | disable =>
      obtain ⟨_, off, latch⟩ := disable_spec beating
      simp only [Bool.toNat_false, Nat.add_zero]
      refine ⟨since, paid, fun now => latched (latch.symm.trans now), fun on _ => ?_⟩
      rw [off] at on
      cases on
  | beat latch =>
      obtain ⟨_, _, count, ctl, clear, next⟩ := irq_spec some_ room beating latch
      have before := latched latch
      have one : (n + true.toNat) * freq = n * freq + freq := Nat.succ_mul n freq
      refine ⟨by rwa [count], ?_, fun now => ?_, fun on _ => ?_⟩
      · rw [count]
        omega
      · rw [clear] at now
        cases now
      · rw [next (ctl.symm.trans on)]
        omega

theorem prompt {late : Nat} (moves : c.Moves freq after ticked) (some_ : 0 < freq) (room : c.count + freq < 2 ^ 64)
    (beating : c.Beating freq) (on : c.ctl = true) (near : c.count ≤ c.cval + late)
    (untouched : after.cval = c.cval ∨ ticked = true) (prompt : c.Prompt freq late origin n) :
    after.Prompt freq late origin (n + ticked.toNat) := by
  unfold Prompt at *
  cases ticked with
  | false =>
      rw [untouched.resolve_right Bool.false_ne_true]
      exact prompt
  | true =>
      cases moves with
      | beat latch =>
          obtain ⟨_, _, _, _, _, next⟩ := irq_spec some_ room beating latch
          have period : (n + true.toNat + 1) * freq = (n + 1) * freq + freq := Nat.succ_mul (n + 1) freq
          have wait : (n + true.toNat) * late = n * late + late := Nat.succ_mul n late
          rw [next on]
          omega

end Moves

end

end Clockwork

namespace Wired

section
variable (spaces : AddressSpaces) (address : Static → UInt64) (freq : Nat) (w : Wired)

-- The counter is a period clear of its end.
def Fits (freq : Nat) (w : Wired) : Prop := w.clock.count + freq < 2 ^ 64

def Event.lapse : Event → Nat
  | .pass d => d
  | .machine _ => 0

-- Nobody starts the timer over.
def Alone (event : Event) : Prop := event ≠ .machine .arm ∧ event ≠ .machine .unmask

-- The timer is on, and its interrupt is at most late counts old.
def Served (late : Nat) (w : Wired) : Prop := w.clock.ctl = true ∧ w.clock.count ≤ w.clock.cval + late

theorem next_count (event : Event) : (w.next spaces address freq event).clock.count = w.clock.count + event.lapse := by
  cases event with
  | pass d => rfl
  | machine event =>
      change _ = w.clock.count
      unfold next
      dsimp only
      split
      · unfold exception
        split
        · split_ifs
          · rfl
          · dsimp only
            exact Clockwork.irq_count w.clock
          · rfl
        · rfl
        · dsimp only
          split_ifs
          · rfl
          · rfl
      · split
        · split_ifs
          · rfl
          · rfl
        · split_ifs
          · rfl
          · rfl
        · rfl

theorem run_count (events : List Event) :
    (Run.exec (next spaces address freq) w events).clock.count = w.clock.count + (events.map Event.lapse).sum := by
  induction events generalizing w with
  | nil => rfl
  | cons event rest ih => rw [Run.exec_cons, ih, next_count, List.map_cons, List.sum_cons, Nat.add_assoc]

theorem fits_along (events : List Event) (room : w.clock.count + (events.map Event.lapse).sum + freq < 2 ^ 64) :
    Run.Always (next spaces address freq) (Fits freq) w events := by
  induction events generalizing w with
  | nil => exact room
  | cons event rest ih =>
      rw [List.map_cons, List.sum_cons] at room
      refine ⟨?_, ih _ ?_⟩
      · unfold Fits
        omega
      · rw [next_count]
        omega

theorem run_ticks (event : Opal.Event) (idle : w.machine.handlesTick event = false) :
    (w.run spaces address event).machine.kernel.ticks = w.machine.kernel.ticks := by
  change (w.machine.next spaces address event).kernel.ticks = _
  rw [Machine.next_ticks, idle, if_neg Bool.false_ne_true]

theorem device_tick (event : Opal.Event) (source : Source) (t : Trap) (device : Device) (taken : event.exception = some (source, t))
    (irq : t.kind = .irq) :
    w.machine.handlesTick (event.withDevice device) =
      (w.machine.enabled event && !w.machine.oops && decide (device.irqId = timerIrq)) := by
  cases event with
  | el1 fault =>
      cases taken
      simp [Machine.handlesTick, Event.withDevice, Event.exception, isTick, irq, Machine.enabled]
  | trap fault =>
      cases taken
      simp [Machine.handlesTick, Event.withDevice, Event.exception, isTick, irq, Machine.enabled]
  | _ => cases taken

theorem exception_moves (event : Opal.Event) (source : Source) (t : Trap) (taken : event.exception = some (source, t))
    (beating : w.clock.Beating freq) (some_ : 0 < freq) (room : w.clock.count + freq < 2 ^ 64) :
    ∃ ticked, w.clock.Moves freq (w.exception spaces address event t).clock ticked ∧
      (w.exception spaces address event t).machine.kernel.ticks = w.machine.kernel.ticks + (if ticked then 1 else 0) ∧
        ((w.exception spaces address event t).clock.cval = w.clock.cval ∨ ticked = true) := by
  have still : w.machine.kernel.ticks = w.machine.kernel.ticks + if false = true then 1 else 0 := by
    simp
  unfold exception
  cases kind : t.kind with
  | irq =>
      dsimp only
      by_cases nothing : w.clock.gic.highest = none
      · rw [if_pos nothing]
        exact ⟨false, .still, still, .inl rfl⟩
      · rw [if_neg nothing]
        have latched : w.clock.gic.latch timerIrq = true := by
          by_contra clear
          exact nothing (by rw [Gic.highest_eq beating.up, if_neg clear])
        have id := (Clockwork.irq_spec some_ room beating latched).1
        by_cases served : (w.machine.enabled event && !w.machine.oops) = true
        · rw [if_pos served]
          dsimp only
          have beat : w.clock.Moves freq w.clock.irq.2 true := .beat latched
          refine ⟨true, beat, ?_, .inr rfl⟩
          have tick := w.device_tick event source t ⟨w.clock.irq.1, w.clock.istatus⟩ taken kind
          rw [served, id, decide_eq_true rfl, Bool.and_true] at tick
          change (w.machine.next spaces address _).kernel.ticks = _
          rw [Machine.next_ticks, id, tick]
          rfl
        · rw [if_neg served]
          refine ⟨false, .still, (w.run_ticks spaces address event ?_).trans still, .inl rfl⟩
          rw [Machine.handlesTick, taken]
          simp only [Bool.eq_false_iff.mpr served, Bool.false_and]
  | fiq => exact ⟨false, .still, still, .inl rfl⟩
  | synchronous =>
      have idle : w.machine.handlesTick event = false := by
        simp [Machine.handlesTick, taken, isTick, kind]
      have same := (w.run_ticks spaces address event idle).trans still
      dsimp only
      split_ifs
      · exact ⟨false, .disable, same, .inl rfl⟩
      · exact ⟨false, .still, same, .inl rfl⟩
  | sError =>
      have idle : w.machine.handlesTick event = false := by
        simp [Machine.handlesTick, taken, isTick, kind]
      have same := (w.run_ticks spaces address event idle).trans still
      dsimp only
      split_ifs
      · exact ⟨false, .disable, same, .inl rfl⟩
      · exact ⟨false, .still, same, .inl rfl⟩

theorem next_moves (event : Event) (beating : w.clock.Beating freq) (some_ : 0 < freq) (room : w.clock.count + freq < 2 ^ 64) :
    ∃ ticked, w.clock.Moves freq (w.next spaces address freq event).clock ticked ∧
      (w.next spaces address freq event).machine.kernel.ticks = w.machine.kernel.ticks + (if ticked then 1 else 0) ∧
        (Alone event → (w.next spaces address freq event).clock.cval = w.clock.cval ∨ ticked = true) := by
  cases event with
  | pass d => exact ⟨false, .pass d, by simp [next], fun _ => .inl rfl⟩
  | machine event =>
      cases taken : event.exception with
      | some pair =>
          obtain ⟨ticked, moves, counted, kept⟩ := w.exception_moves spaces address freq event pair.1 pair.2 taken beating some_ room
          simp only [next, taken]
          exact ⟨ticked, moves, counted, fun _ => kept⟩
      | none =>
          have idle : w.machine.handlesTick event = false := by
            simp [Machine.handlesTick, taken]
          have same := w.run_ticks spaces address event idle
          simp only [next, taken]
          split
          · split_ifs
            · exact ⟨false, .arm, by simp [same], fun alone => absurd rfl alone.1⟩
            · exact ⟨false, .still, by simp [same], fun _ => .inl rfl⟩
          · split_ifs
            · exact ⟨false, .arm, by simp [same], fun alone => absurd rfl alone.2⟩
            · exact ⟨false, .still, by simp [same], fun _ => .inl rfl⟩
          · exact ⟨false, .still, by simp [same], fun _ => .inl rfl⟩

variable {freq} {w}

theorem boot_beating (cpu : Cpu) (clock : Clockwork) (reset : clock.gic.Reset) : (boot spaces cpu clock).clock.Beating freq := by
  have low : (GicV2.boardInit clock.gic).line timerIrq = false := by
    rw [GicV2.boardInit, GicV2.enable_irq_eq _ timerIrq (by decide), GicV2.init_eq]
    exact reset.low
  refine ⟨Gic.board_init_up reset, low, fun high => ?_, (fun on => by cases on), fun on => by cases on⟩
  have never := low.symm.trans high
  cases never

theorem run_beating (some_ : 0 < freq) (beating : w.clock.Beating freq) (events : List Event)
    (fits : Run.Always (next spaces address freq) (Fits freq) w events) :
    (Run.exec (next spaces address freq) w events).clock.Beating freq := by
  refine Run.invariant _ (fun s _ => s.Fits freq) (fun s => s.clock.Beating freq) ?_ w events beating
    (Run.along_of_always _ _ w events fits)
  intro s event beating fits
  obtain ⟨_, moves, _, _⟩ := s.next_moves spaces address freq event beating some_ fits
  exact moves.beating some_ fits beating

-- A GIC and a timer out of reset.
def coldGic : Gic :=
  ⟨false, fun _ => 0, fun _ => 0, fun _ => 0, fun _ => 0, fun _ => 0, 0, fun _ => false, fun _ => false, fun _ => false, false, 0, 0⟩

def coldClock : Clockwork := ⟨0, 0, false, 0, coldGic⟩

theorem cold_reset : coldGic.Reset :=
  ⟨fun id _ => by simp [coldGic, Gic.enabled], fun _ _ => ⟨rfl, rfl⟩, fun _ => rfl, rfl⟩

-- However the machine and its clock take turns, a timer that has run out is
-- presented until it is dealt with, and nothing but the timer ever is.
theorem timer_presented (some_ : 0 < freq) (cpu : Cpu) (clock : Clockwork) (reset : clock.gic.Reset) (events : List Event)
    (room : clock.count + (events.map Event.lapse).sum + freq < 2 ^ 64) :
    let now := (Run.exec (next spaces address freq) (boot spaces cpu clock) events).clock
    (now.istatus = true → now.gic.highest = some timerIrq) ∧
      ∀ id, now.gic.presents id = true → id = timerIrq ∧ (GicV2.acknowledge now.gic).1 = timerIrq := by
  intro now
  have beating : now.Beating freq :=
    run_beating spaces address some_ (boot_beating spaces cpu clock reset) events (fits_along spaces address freq _ events room)
  refine ⟨fun due => ?_, fun id shown => ?_⟩
  · rw [Gic.highest_eq beating.up, beating.latched (beating.line.trans due), if_pos rfl]
  · rw [Gic.presents_iff beating.up, Bool.and_eq_true, decide_eq_true_eq] at shown
    exact ⟨shown.1, by rw [Gic.acknowledge_latched beating.up shown.2]⟩

theorem timer_presented_second :
    (Run.exec (next flat (fun _ => 0) 5) (boot flat coldCpu coldClock) [.machine .unmask, .pass 5]).clock.gic.highest =
      some timerIrq :=
  (timer_presented flat (fun _ => 0) (by decide) coldCpu coldClock cold_reset [.machine .unmask, .pass 5] (by decide)).1 (by decide)

theorem ticks_succ (ticks : UInt64) (n : Nat) (ticked : Bool) :
    ticks + UInt64.ofNat n + (if ticked then 1 else 0) = ticks + UInt64.ofNat (n + ticked.toNat) := by
  cases ticked with
  | false => simp
  | true =>
      rw [Bool.toNat_true, UInt64.ofNat_add, if_pos rfl, UInt64.add_assoc]
      rfl

theorem run_paced (some_ : 0 < freq) (beating : w.clock.Beating freq) (events : List Event)
    (fits : Run.Always (next spaces address freq) (Fits freq) w events) :
    let after := Run.exec (next spaces address freq) w events
    ∃ n, after.clock.Paced freq w.clock.count n ∧ after.machine.kernel.ticks = w.machine.kernel.ticks + UInt64.ofNat n := by
  have kept := Run.invariant (next spaces address freq) (fun s _ => s.Fits freq)
    (fun s => s.clock.Beating freq ∧ ∃ n, s.clock.Paced freq w.clock.count n ∧
      s.machine.kernel.ticks = w.machine.kernel.ticks + UInt64.ofNat n) ?_ w events ?_ (Run.along_of_always _ _ w events fits)
  · exact kept.2
  · rintro s event ⟨beating, n, paced, counted⟩ fits
    obtain ⟨ticked, moves, next, _⟩ := s.next_moves spaces address freq event beating some_ fits
    refine ⟨moves.beating some_ fits beating, n + ticked.toNat, moves.paced some_ fits beating paced, ?_⟩
    rw [next, counted, ticks_succ]
  · refine ⟨beating, 0, ⟨Nat.le_refl _, ?_, fun _ => ?_, fun _ _ => ?_⟩, by simp⟩
    · omega
    · omega
    · omega

-- Between any two points of a run there is at most one tick more than the
-- periods that have passed.
theorem ticks_not_early (some_ : 0 < freq) (cpu : Cpu) (clock : Clockwork) (reset : clock.gic.Reset) (before after : List Event)
    (room : clock.count + ((before ++ after).map Event.lapse).sum + freq < 2 ^ 64) :
    let past := Run.exec (next spaces address freq) (boot spaces cpu clock) before
    let now := Run.exec (next spaces address freq) past after
    (now.machine.kernel.ticks - past.machine.kernel.ticks).toNat * freq ≤ (after.map Event.lapse).sum + freq := by
  intro past now
  obtain ⟨early, late⟩ := Run.always_append _ _ _ before after (fits_along spaces address freq (boot spaces cpu clock) (before ++ after) room)
  have beating := run_beating spaces address some_ (boot_beating spaces cpu clock reset) before early
  obtain ⟨n, paced, counted⟩ := run_paced spaces address some_ beating after late
  have most : (now.machine.kernel.ticks - past.machine.kernel.ticks).toNat ≤ n := by
    rw [counted, UInt64.add_comm, UInt64.add_sub_cancel, UInt64.toNat_ofNat']
    exact Nat.mod_le n _
  have paid := paced.paid
  rw [run_count, Nat.add_sub_cancel_left] at paid
  exact (Nat.mul_le_mul_right freq most).trans paid

-- The second that begins the count is late, and the next tick is soon.
def lateBeat : List Event :=
  [.machine .unmask, .pass 7, .machine (.el1 { Trap.tick (fun _ => 0) 0 with pstate := 5 }), .pass 4]

theorem ticks_not_early_late_beat :
    let past := Run.exec (next flat (fun _ => 0) 5) (boot flat coldCpu coldClock) []
    let now := Run.exec (next flat (fun _ => 0) 5) past lateBeat
    (now.machine.kernel.ticks - past.machine.kernel.ticks).toNat * 5 ≤ (lateBeat.map Event.lapse).sum + 5 :=
  ticks_not_early flat (fun _ => 0) (by decide) coldCpu coldClock cold_reset [] lateBeat (by decide)

-- A timer that runs on, with its interrupts taken in time, loses no tick: what
-- each one may cost is the time that it waited.
theorem ticks_not_late {late : Nat} (some_ : 0 < freq) (cpu : Cpu) (clock : Clockwork) (reset : clock.gic.Reset)
    (before after : List Event) (room : clock.count + ((before ++ after).map Event.lapse).sum + freq < 2 ^ 64)
    (alone : ∀ event ∈ after, Alone event)
    (served : Run.Always (next spaces address freq) (Served late) (Run.exec (next spaces address freq) (boot spaces cpu clock) before)
      after) :
    let past := Run.exec (next spaces address freq) (boot spaces cpu clock) before
    let now := Run.exec (next spaces address freq) past after
    (after.map Event.lapse).sum ≤ ((now.machine.kernel.ticks - past.machine.kernel.ticks).toNat + 1) * (freq + late) := by
  intro past now
  obtain ⟨early, fits⟩ := Run.always_append _ _ _ before after (fits_along spaces address freq (boot spaces cpu clock) (before ++ after) room)
  have beating := run_beating spaces address some_ (boot_beating spaces cpu clock reset) before early
  have inv := Run.invariant (next spaces address freq) (fun s e => (s.Fits freq ∧ s.Served late) ∧ Alone e)
    (fun s => s.clock.Beating freq ∧ ∃ n, s.clock.Paced freq past.clock.count n ∧ s.clock.Prompt freq late past.clock.count n ∧
      s.machine.kernel.ticks = past.machine.kernel.ticks + UInt64.ofNat n) ?_ past after ?_ ?_
  · obtain ⟨_, n, paced, prompt, counted⟩ := inv
    have elapsed : now.clock.count = past.clock.count + (after.map Event.lapse).sum := run_count spaces address freq past after
    have small : n < 2 ^ 64 := by
      have fit : now.Fits freq := Run.always_last _ _ _ after fits
      have paid : n * freq ≤ now.clock.count - past.clock.count + freq := paced.paid
      have least : n ≤ n * freq := Nat.le_mul_of_pos_right n some_
      unfold Fits at fit
      omega
    rw [counted, UInt64.add_comm, UInt64.add_sub_cancel, UInt64.toNat_ofNat', Nat.mod_eq_of_lt small, Nat.mul_add, Nat.succ_mul n late]
    have last : now.Served late := Run.always_last _ _ _ after served
    have near := last.2
    have owed : now.clock.cval ≤ past.clock.count + (n + 1) * freq + n * late := prompt
    omega
  · rintro s event ⟨beating, n, paced, prompt, counted⟩ ⟨⟨fits, on, near⟩, alone⟩
    obtain ⟨ticked, moves, next, kept⟩ := s.next_moves spaces address freq event beating some_ fits
    refine ⟨moves.beating some_ fits beating, n + ticked.toNat, moves.paced some_ fits beating paced,
      moves.prompt some_ fits beating on near (kept alone) prompt, ?_⟩
    rw [next, counted, ticks_succ]
  · have on := (Run.always_head _ _ _ after served).1
    have near : past.clock.cval ≤ past.clock.count + freq := beating.near on
    refine ⟨beating, 0, ⟨Nat.le_refl _, ?_, fun _ => ?_, fun _ _ => ?_⟩, ?_, by simp⟩
    · omega
    · omega
    · omega
    · change past.clock.cval ≤ past.clock.count + (0 + 1) * freq + 0 * late
      omega
  · rw [Run.along_and, Run.along_and]
    exact ⟨⟨Run.along_of_always _ _ _ after fits, Run.along_of_always _ _ _ after served⟩, Run.along_of_mem _ _ _ after alone⟩

-- A tick is served two counts after its deadline.
def servedLate : List Event :=
  [.pass 4, .pass 3, .machine (.el1 { Trap.tick (fun _ => 0) 0 with pstate := 5 }), .pass 4]

theorem ticks_not_late_waiting :
    let past := Run.exec (next flat (fun _ => 0) 5) (boot flat coldCpu coldClock) [.machine .unmask]
    let now := Run.exec (next flat (fun _ => 0) 5) past servedLate
    (servedLate.map Event.lapse).sum ≤ ((now.machine.kernel.ticks - past.machine.kernel.ticks).toNat + 1) * (5 + 2) :=
  ticks_not_late flat (fun _ => 0) (by decide) coldCpu coldClock cold_reset [.machine .unmask] servedLate (by decide)
    (by simp [servedLate, Alone])
    ⟨⟨rfl, by decide⟩, ⟨rfl, by decide⟩, ⟨rfl, by decide⟩, ⟨by decide +kernel, by decide +kernel⟩, by decide +kernel, by decide +kernel⟩

end

end Wired

end Opal
