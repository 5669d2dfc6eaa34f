import Opal.Privilege

set_option autoImplicit false

namespace Opal

-- The asm block of drop_to_el0_with, the eret last.
inductive DropInstr where
  | msrSpsr (value : UInt64)
  | msrElr (value : UInt64)
  | msrSpEl0 (value : UInt64)
  | movZero (d : Fin 31)
  | eret
  deriving DecidableEq

def dropMoves : List DropInstr :=
  [ .msrSpsr 0, .msrElr userCodeVa, .msrSpEl0 userStackTop,
    .movZero 0, .movZero 1, .movZero 2, .movZero 3, .movZero 4, .movZero 5, .movZero 6, .movZero 7, .movZero 8, .movZero 9,
    .movZero 10, .movZero 11, .movZero 12, .movZero 13, .movZero 14, .movZero 15, .movZero 16, .movZero 17, .movZero 18 ]

def dropBlock : List DropInstr := dropMoves ++ [.eret]

def DropInstr.run (cpu : Cpu) : DropInstr → Cpu
  | .msrSpsr value => { cpu with spsrEl1 := value }
  | .msrElr value => { cpu with elrEl1 := value }
  | .msrSpEl0 value => { cpu with spEl0 := value }
  | .movZero d => cpu.setX d 0
  | .eret => { cpu with pc := cpu.elrEl1, pstate := cpu.spsrEl1 }

-- astray is wherever an eret of the block goes that stays at EL1.
inductive DropStage where
  | outside
  | block (rest : List DropInstr)
  | astray
  deriving DecidableEq

-- The machine with drop_to_el0_with taken apart.
structure Descent where
  machine : Machine
  stage : DropStage

-- enterBlock is drop_to_el0_with up to its asm block, instr the next instruction
-- of the block.
inductive Doing where
  | event (event : Event)
  | enterBlock (residue : Fin 31 → UInt64)
  | instr

namespace Descent

def boot (spaces : AddressSpaces) (cpu : Cpu) : Descent := ⟨Machine.boot spaces cpu, .outside⟩

-- What an event amounts to here. An interrupt of the block finds its registers.
def served (d : Descent) : Event → Option Event
  | .enter _ => none
  | .el1 t =>
      match d.stage with
      | .outside => some (.el1 t)
      | .block _ => some (.el1 { t with x := d.machine.cpu.x, spEl0 := d.machine.cpu.spEl0 })
      | .astray => none
  | event => if d.stage = .outside then some event else none

-- A handler that goes on in the interrupted drop goes on in its block.
def after (d : Descent) (machine : Machine) : Descent where
  machine := machine
  stage :=
    match d.stage with
    | .block rest => if machine.mode = d.machine.mode then .block rest else .outside
    | stage => stage

def enterBlock (d : Descent) (residue : Fin 31 → UInt64) : Descent :=
  match d.stage, d.machine.mode with
  | .outside, .dropping root =>
      { machine :=
          { d.machine with
            kernel := { d.machine.kernel with ttbr0 := root }
            cpu := { d.machine.cpu with x := residue } }
        stage := .block dropBlock }
  | _, _ => d

def instr (d : Descent) : Descent :=
  match d.stage with
  | .block (.eret :: _) =>
      let m := { d.machine with cpu := DropInstr.eret.run d.machine.cpu }
      if isEl0 m.cpu.pstate then ⟨{ m with mode := .el0 }, .outside⟩ else ⟨m, .astray⟩
  | .block (instr :: rest) => ⟨{ d.machine with cpu := instr.run d.machine.cpu }, .block rest⟩
  | _ => d

def nextWith (step : Machine → Event → Machine) (d : Descent) : Doing → Descent
  | .event event =>
      match d.served event with
      | none => d
      | some event => d.after (step d.machine event)
  | .enterBlock residue => d.enterBlock residue
  | .instr => d.instr

section
variable (spaces : AddressSpaces) (address : Static → UInt64)

def next : Descent → Doing → Descent := nextWith (Machine.next spaces address)

theorem eret_leaves (m : Machine) (rest : List DropInstr) (el0 : isEl0 m.cpu.spsrEl1 = true) :
    next spaces address ⟨m, .block (.eret :: rest)⟩ .instr =
      ⟨{ m with cpu := DropInstr.eret.run m.cpu, mode := .el0 }, .outside⟩ := if_pos el0

theorem block_moves (m : Machine) (moves : List DropInstr) (stays : .eret ∉ moves) :
    Run.exec (next spaces address) ⟨m, .block (moves ++ [.eret])⟩ (List.replicate moves.length .instr) =
      ⟨{ m with cpu := moves.foldl DropInstr.run m.cpu }, .block [.eret]⟩ := by
  induction moves generalizing m with
  | nil => rfl
  | cons move rest ih =>
      have goes : next spaces address ⟨m, .block (move :: rest ++ [.eret])⟩ .instr =
          ⟨{ m with cpu := move.run m.cpu }, .block (rest ++ [.eret])⟩ := by
        cases move with
        | eret => exact absurd List.mem_cons_self stays
        | _ => rfl
      rw [List.length_cons, List.replicate_succ, Run.exec_cons, goes, ih _ fun later => stays (List.mem_cons_of_mem _ later)]
      rfl

theorem zeros_run (regs : List (Fin 31)) (cpu : Cpu) :
    (regs.map .movZero).foldl DropInstr.run cpu = { cpu with x := fun i => if i ∈ regs then 0 else cpu.x i } := by
  induction regs generalizing cpu with
  | nil => rfl
  | cons d rest ih =>
      rw [List.map_cons, List.foldl_cons, ih]
      simp only [DropInstr.run, Cpu.setX, Cpu.mk.injEq, and_true]
      funext i
      by_cases later : i ∈ rest
      · rw [if_pos later, if_pos (List.mem_cons_of_mem d later)]
      · by_cases here : i = d
        · rw [if_neg later, here, Function.update_self, if_pos List.mem_cons_self]
        · rw [if_neg later, Function.update_of_ne here, if_neg fun either => (List.mem_cons.mp either).elim here later]

-- The registers, with what the block leaves in them.
theorem moves_run (cpu : Cpu) :
    dropMoves.foldl DropInstr.run cpu =
      { cpu with
        x := fun i => if i.val < 19 then 0 else cpu.x i
        spEl0 := userStackTop
        elrEl1 := userCodeVa
        spsrEl1 := 0 } := by
  let zeros : List (Fin 31) := [0, 1, 2, 3, 4, 5, 6, 7, 8, 9, 10, 11, 12, 13, 14, 15, 16, 17, 18]
  have split : dropMoves = [.msrSpsr 0, .msrElr userCodeVa, .msrSpEl0 userStackTop] ++ zeros.map .movZero := rfl
  have member : ∀ i : Fin 31, i ∈ zeros ↔ i.val < 19 := by decide
  rw [split, List.foldl_append, zeros_run]
  simp only [member]
  rfl

theorem block_runs (m : Machine) :
    Run.exec (next spaces address) ⟨m, .block dropBlock⟩ (List.replicate dropBlock.length .instr) =
      ⟨m.enter m.kernel.ttbr0 m.cpu.x, .outside⟩ := by
  have length : dropBlock.length = dropMoves.length + 1 := rfl
  have level : isEl0 0 = true := by decide
  rw [length, List.replicate_succ', Run.exec_append, dropBlock, block_moves spaces address m dropMoves (by decide), moves_run,
    Run.exec_cons, Run.exec_nil, eret_leaves spaces address _ [] level]
  rfl

-- Without an interrupt the block is the machine's own step into the task.
theorem block_enters (m : Machine) (root : UInt64) (residue : Fin 31 → UInt64) (dropping : m.mode = .dropping root) :
    Run.exec (next spaces address) ⟨m, .outside⟩ (.enterBlock residue :: List.replicate dropBlock.length .instr) =
      ⟨m.next spaces address (.enter residue), .outside⟩ := by
  have enters : m.next spaces address (.enter residue) = m.enter root residue := by
    simp only [Machine.next, Machine.enabled, Machine.fire, dropping, if_true]
  have starts : next spaces address ⟨m, .outside⟩ (.enterBlock residue) =
      ⟨{ m with kernel := { m.kernel with ttbr0 := root }, cpu := { m.cpu with x := residue } }, .block dropBlock⟩ := by
    simp only [next, nextWith, enterBlock, dropping]
  rw [Run.exec_cons, starts, block_runs, enters]
  rfl

end

-- History: where each task has stood, and whether an interrupt has been served
-- since the block last wrote SPSR_EL1.
structure Past where
  stood : Nat → List UInt64
  disturbed : Bool

section
variable (spaces : AddressSpaces) (address : Static → UInt64) (d : Descent) (past : Past)

def remember (d : Descent) (doing : Doing) (after : Descent) (past : Past) : Past :=
  match doing with
  | .event event =>
      match d.served event with
      | none => past
      | some event =>
          { stood := d.machine.stands event after.machine past.stood
            disturbed := past.disturbed || d.machine.enabled event && !d.machine.oops }
  | .enterBlock _ => past
  | .instr => if d.stage = .block dropBlock then { past with disturbed := false } else past

-- A step ends with an eret into a task if the machine's own step does, or if it
-- is the eret of the block.
def Erets (d after : Descent) : Doing → Prop
  | .event event => ∃ own, d.served event = some own ∧ d.machine.enabled own = true ∧ d.machine.Erets after.machine own
  | .enterBlock _ => False
  | .instr => ∃ rest, d.stage = .block (.eret :: rest)

-- A preempting tick is served in a drop, or the block makes its eret after an
-- interrupt has been served behind its write to SPSR_EL1.
def Disturbed (d : Descent) (past : Past) : Doing → Prop
  | .event event => ∃ own, d.served event = some own ∧ d.machine.InterruptsDrop own
  | .enterBlock _ => False
  | .instr => (∃ rest, d.stage = .block (.eret :: rest)) ∧ past.disturbed = true

-- The block runs in the task's address space, and its own write to SPSR_EL1 is
-- there unless an interrupt has come since.
structure Within (d : Descent) (past : Past) (rest : List DropInstr) : Prop where
  dropping : d.machine.mode = .dropping d.machine.kernel.ttbr0
  left : rest <:+ dropBlock
  level : rest ≠ dropBlock → (isEl0 d.machine.cpu.spsrEl1 = true ↔ past.disturbed = false)

structure Settled (d : Descent) (past : Past) : Prop where
  grounded : d.machine.Grounded
  within : ∀ rest, d.stage = .block rest → d.Within past rest

theorem interrupt_returns (m : Machine) (t : Trap) (root : UInt64) (dropping : m.mode = .dropping root)
    (enabled : m.enabled (.el1 t) = true) (down : m.oops = false) (quiet : ¬ m.InterruptsDrop (.el1 t)) :
    ∃ k mem, m.handled spaces .currentSpElx t = .resumed k mem (t.frame m.cpu.spEl1) ∧ k.ttbr0 = m.kernel.ttbr0 := by
  have irq : t.kind = .irq := by
    simp only [Machine.enabled, dropping, Bool.and_eq_true, decide_eq_true_eq] at enabled
    exact enabled.2.1
  unfold Machine.handled
  simp only [irq, handle, handleIrq]
  split_ifs with _ timer
  · exact ⟨_, _, rfl, rfl⟩
  · have ticks : isTick t = true := by simp only [isTick, irq, timer, decide_true]
    have current : (onTick m.kernel).wakeSleepers.currentTid = m.kernel.currentTid := Kernel.sweep_current _ _
    have armed : (onTick m.kernel).wakeSleepers.preempt = m.kernel.preempt := Kernel.sweep_preempt _ _
    have idle : ¬ (m.kernel.preempt = true ∧ m.kernel.currentTid ≠ 0) := fun preempts =>
      quiet ⟨enabled, down, ticks, preempts⟩
    simp only [serviceTick, armed, current]
    rw [if_neg idle]
    exact ⟨_, _, rfl, (Kernel.SameTask.sweep (onTick m.kernel) _).root⟩
  · exact ⟨_, _, rfl, rfl⟩

theorem interrupt_within (rest : List DropInstr) (within : d.Within past rest) (t : Trap)
    (quiet : ¬ d.machine.InterruptsDrop (.el1 t)) (same : (d.machine.next spaces address (.el1 t)).mode = d.machine.mode) :
    Within ⟨d.machine.next spaces address (.el1 t), .block rest⟩
      { stood := d.machine.stands (.el1 t) (d.machine.next spaces address (.el1 t)) past.stood
        disturbed := past.disturbed || d.machine.enabled (.el1 t) && !d.machine.oops } rest := by
  obtain ⟨dropping, left, level⟩ := within
  by_cases enabled : d.machine.enabled (.el1 t) = true
  · cases down : d.machine.oops with
    | true =>
        have parked := (Machine.deliver_nested spaces address d.machine .currentSpElx d.machine.mem t down).1
        rw [Machine.next_enabled spaces address _ _ enabled, dropping] at same
        exact absurd (parked.symm.trans same) Mode.noConfusion
    | false =>
        obtain ⟨k, mem, outcome, root⟩ := interrupt_returns spaces d.machine t _ dropping enabled down quiet
        have resumed := Machine.deliver_resumed spaces address d.machine .currentSpElx d.machine.mem t down k mem _ outcome
        have spsr := Machine.deliver_spsr spaces address d.machine .currentSpElx d.machine.mem t down k mem _ outcome
        have privileged : isEl0 t.pstate = false := by
          simp only [Machine.enabled, Bool.and_eq_true, Bool.not_eq_true'] at enabled
          exact enabled.1
        refine ⟨?_, left, fun _ => ?_⟩
        · rw [same, dropping, Machine.next_enabled spaces address _ _ enabled]
          exact congrArg Mode.dropping ((congrArg Kernel.ttbr0 resumed.kernel).trans root).symm
        · rw [Machine.next_enabled spaces address _ _ enabled]
          change isEl0 (d.machine.deliver spaces address .currentSpElx d.machine.mem t).cpu.spsrEl1 = true ↔ _
          rw [spsr, enabled]
          change isEl0 t.pstate = true ↔ _
          rw [privileged]
          simp
  · rw [Machine.next_disabled spaces address _ _ enabled]
    refine ⟨dropping, left, fun moved => ?_⟩
    rw [Bool.eq_false_iff.mpr enabled, Bool.false_and, Bool.or_false]
    exact level moved

theorem served_within (rest : List DropInstr) (block : d.stage = .block rest) (event own : Event)
    (serves : d.served event = some own) : ∃ t, own = .el1 t := by
  cases event with
  | el1 t =>
      simp only [served, block, Option.some.injEq] at serves
      exact ⟨_, serves.symm⟩
  | enter residue => cases serves
  | _ =>
      simp only [served, block] at serves
      rw [if_neg (fun no => (by cases no))] at serves
      cases serves

theorem event_within (event own : Event) (serves : d.served event = some own) (settled : d.Settled past)
    (quiet : ¬ d.machine.InterruptsDrop own) (rest : List DropInstr)
    (block : (d.after (d.machine.next spaces address own)).stage = .block rest) :
    (d.after (d.machine.next spaces address own)).Within
      { stood := d.machine.stands own (d.machine.next spaces address own) past.stood
        disturbed := past.disturbed || d.machine.enabled own && !d.machine.oops } rest := by
  cases stage : d.stage with
  | outside =>
      simp only [after, stage] at block
      cases block
  | astray =>
      simp only [after, stage] at block
      cases block
  | block left =>
      obtain ⟨t, rfl⟩ := served_within d left stage event own serves
      by_cases same : (d.machine.next spaces address (.el1 t)).mode = d.machine.mode
      · have goes_on : d.after (d.machine.next spaces address (.el1 t)) =
            ⟨d.machine.next spaces address (.el1 t), .block left⟩ := by
          simp only [after, stage, if_pos same]
        rw [goes_on] at block ⊢
        cases block
        exact interrupt_within spaces address d past _ (settled.within _ stage) t quiet same
      · simp only [after, stage, if_neg same] at block
        cases block

theorem enter_settled (settled : d.Settled past) (residue : Fin 31 → UInt64) : (d.enterBlock residue).Settled past := by
  obtain ⟨m, stage⟩ := d
  cases stage with
  | outside =>
      cases mode : m.mode with
      | dropping root =>
          have starts : enterBlock ⟨m, .outside⟩ residue =
              ⟨{ m with kernel := { m.kernel with ttbr0 := root }, cpu := { m.cpu with x := residue } }, .block dropBlock⟩ := by
            simp only [enterBlock, mode]
          obtain ⟨confined, rooted, idle, current, space, drops⟩ := settled.grounded
          rw [starts]
          refine ⟨⟨confined, rooted, idle, current, fun _ _ el0 => ?_, drops⟩, fun rest block => ?_⟩
          · exact absurd (mode.symm.trans el0) Mode.noConfusion
          · cases block
            exact ⟨mode, List.suffix_refl _, fun other => absurd rfl other⟩
      | _ =>
          have idle : enterBlock ⟨m, .outside⟩ residue = ⟨m, .outside⟩ := by simp only [enterBlock, mode]
          rw [idle]
          exact settled
  | block rest => exact settled
  | astray => exact settled

theorem eret_last (rest : List DropInstr) : DropInstr.eret :: rest ≠ dropBlock := by
  intro same
  rw [dropBlock, dropMoves, List.cons_append] at same
  exact absurd (List.cons.inj same).1 DropInstr.noConfusion

-- Nothing behind its first instruction writes SPSR_EL1.
theorem level_kept (cpu : Cpu) (move : DropInstr) (rest : List DropInstr) (left : move :: rest <:+ dropBlock)
    (moved : move :: rest ≠ dropBlock) : (move.run cpu).spsrEl1 = cpu.spsrEl1 := by
  have behind : move :: rest <:+ dropBlock.tail := by
    rcases List.suffix_cons_iff.mp left with whole | later
    · exact absurd whole moved
    · exact later
  have other : ∀ instr ∈ dropBlock.tail, ∀ value, instr ≠ .msrSpsr value := by
    intro instr member value same
    subst same
    simp [dropBlock, dropMoves] at member
  have plain := other move (behind.subset List.mem_cons_self)
  cases move with
  | msrSpsr value => exact absurd rfl (plain value)
  | _ => rfl

theorem instr_settled (settled : d.Settled past) (calm : ¬ d.Disturbed past .instr) :
    d.instr.Settled (remember d .instr d.instr past) := by
  obtain ⟨m, stage⟩ := d
  cases stage with
  | outside => exact ⟨settled.grounded, fun _ block => by cases block⟩
  | astray => exact ⟨settled.grounded, fun _ block => by cases block⟩
  | block left =>
      have within := settled.within left rfl
      obtain ⟨confined, rooted, idle, current, space, drops⟩ := settled.grounded
      cases left with
      | nil => exact ⟨settled.grounded, fun _ block => by cases block; exact within⟩
      | cons move rest =>
          by_cases last : move = .eret
          · subst last
            have level : isEl0 m.cpu.spsrEl1 = true :=
              (within.level (eret_last rest)).mpr (Bool.eq_false_iff.mpr fun disturbed => calm ⟨⟨rest, rfl⟩, disturbed⟩)
            have leaves : instr ⟨m, .block (.eret :: rest)⟩ =
                ⟨{ m with cpu := DropInstr.eret.run m.cpu, mode := .el0 }, .outside⟩ := if_pos level
            rw [leaves]
            refine ⟨⟨confined, rooted, fun _ no => (by cases no), current, fun down user _ => ?_, fun _ _ _ no => (by cases no)⟩,
              fun _ block => by cases block⟩
            exact drops down user _ within.dropping
          · have goes : instr ⟨m, .block (move :: rest)⟩ = ⟨{ m with cpu := move.run m.cpu }, .block rest⟩ := by
              cases move with
              | eret => exact absurd rfl last
              | _ => rfl
            rw [goes]
            refine ⟨⟨confined, rooted, idle, current, space, drops⟩, fun left' block => ?_⟩
            cases block
            refine ⟨within.dropping, (List.suffix_cons move rest).trans within.left, fun _ => ?_⟩
            by_cases first : move :: rest = dropBlock
            · have writes : move = .msrSpsr 0 := (List.cons.inj first).1
              rw [remember, if_pos (congrArg DropStage.block first), writes]
              exact ⟨fun _ => rfl, fun _ => (show isEl0 0 = true by decide)⟩
            · rw [remember, if_neg (fun same => first (DropStage.block.inj same))]
              change isEl0 (move.run m.cpu).spsrEl1 = true ↔ _
              rw [level_kept m.cpu move rest within.left first]
              exact within.level first

theorem enter_kernel (residue : Fin 31 → UInt64) : (d.enterBlock residue).machine.kernel.table = d.machine.kernel.table := by
  unfold enterBlock
  split <;> rfl

theorem instr_kernel : d.instr.machine.kernel = d.machine.kernel := by
  unfold instr
  split
  · dsimp only
    split_ifs <;> rfl
  · rfl
  · rfl

theorem settled_step (settled : d.Settled past) (doing : Doing) (calm : ¬ d.Disturbed past doing) :
    (d.next spaces address doing).Settled (remember d doing (d.next spaces address doing) past) := by
  cases doing with
  | event event =>
      cases serves : d.served event with
      | none =>
          simp only [next, nextWith, remember, serves]
          exact settled
      | some own =>
          have quiet : ¬ d.machine.InterruptsDrop own := fun interrupts => calm ⟨own, serves, interrupts⟩
          simp only [next, nextWith, remember, serves]
          exact ⟨Machine.grounded_step spaces address d.machine settled.grounded own,
            event_within spaces address d past event own serves settled quiet⟩
  | enterBlock residue => exact enter_settled d past settled residue
  | instr => exact instr_settled d past settled calm

theorem event_step_iff (settled : d.Settled past) (unprivileged : Machine.Unprivileged d.machine.kernel past.stood)
    (event own : Event) (serves : d.served event = some own) :
    (Machine.Unprivileged (d.machine.next spaces address own).kernel
          (d.machine.stands own (d.machine.next spaces address own) past.stood) ∧
        (d.Erets (d.after (d.machine.next spaces address own)) (.event event) →
          isEl0 (d.machine.next spaces address own).cpu.pstate = true)) ↔
      ¬ d.Disturbed past (.event event) := by
  have step := Machine.step_unprivileged_iff spaces address d.machine past.stood settled.grounded unprivileged own
  have only : ∀ other, d.served event = some other → other = own := fun other found =>
    Option.some.inj (found.symm.trans serves)
  constructor
  · rintro ⟨kept, erets⟩ ⟨other, found, interrupts⟩
    obtain rfl := only other found
    exact step.mp ⟨kept, fun enabled reaches => erets ⟨_, serves, enabled, reaches⟩⟩ interrupts
  · intro calm
    obtain ⟨kept, erets⟩ := step.mpr fun interrupts => calm ⟨own, serves, interrupts⟩
    refine ⟨kept, ?_⟩
    rintro ⟨other, found, enabled, reaches⟩
    obtain rfl := only other found
    exact erets enabled reaches

-- Only the block's own eret leaves it for a task.
theorem instr_step_iff (settled : d.Settled past) :
    (d.Erets d.instr .instr → isEl0 d.instr.machine.cpu.pstate = true) ↔ ¬ d.Disturbed past .instr := by
  by_cases last : ∃ rest, d.stage = .block (.eret :: rest)
  · obtain ⟨rest, block⟩ := last
    have level := (settled.within _ block).level (eret_last rest)
    have pstate : d.instr.machine.cpu.pstate = d.machine.cpu.spsrEl1 := by
      simp only [instr, block]
      split_ifs <;> rfl
    rw [pstate]
    constructor
    · rintro erets ⟨_, disturbed⟩
      rw [level.mp (erets ⟨rest, block⟩)] at disturbed
      cases disturbed
    · intro calm _
      exact level.mpr (Bool.eq_false_iff.mpr fun disturbed => calm ⟨⟨rest, block⟩, disturbed⟩)
  · exact ⟨fun _ disturbed => last disturbed.1, fun _ reaches => absurd reaches last⟩

-- A step keeps every saved context at EL0, and its eret into a task goes to
-- EL0, exactly if no interrupt of a drop has come in its way.
theorem undisturbed_step_iff (settled : d.Settled past) (unprivileged : Machine.Unprivileged d.machine.kernel past.stood)
    (doing : Doing) :
    (Machine.Unprivileged (d.next spaces address doing).machine.kernel
          (remember d doing (d.next spaces address doing) past).stood ∧
        (d.Erets (d.next spaces address doing) doing → isEl0 (d.next spaces address doing).machine.cpu.pstate = true)) ↔
      ¬ d.Disturbed past doing := by
  cases doing with
  | event event =>
      cases serves : d.served event with
      | none =>
          have stays : d.next spaces address (.event event) = d := by simp only [next, nextWith, serves]
          simp only [stays, remember, serves]
          refine ⟨fun _ => ?_, fun _ => ⟨unprivileged, ?_⟩⟩
          · rintro ⟨own, found, _⟩
            rw [serves] at found
            cases found
          · rintro ⟨own, found, _⟩
            rw [serves] at found
            cases found
      | some own =>
          have goes : d.next spaces address (.event event) = d.after (d.machine.next spaces address own) := by
            simp only [next, nextWith, serves]
          simp only [goes, remember, serves]
          exact event_step_iff spaces address d past settled unprivileged event own serves
  | enterBlock residue =>
      refine ⟨fun _ => id, fun _ => ⟨?_, fun no => no.elim⟩⟩
      have table := enter_kernel d residue
      obtain ⟨level, place⟩ := unprivileged
      change Machine.Unprivileged (d.enterBlock residue).machine.kernel past.stood
      rw [← table] at level place
      exact ⟨level, place⟩
  | instr =>
      have stood : (remember d .instr d.instr past).stood = past.stood := by
        rw [remember]
        split_ifs <;> rfl
      change (Machine.Unprivileged d.instr.machine.kernel (remember d .instr d.instr past).stood ∧ _) ↔ _
      rw [instr_kernel d, stood]
      exact (and_iff_right unprivileged).trans (instr_step_iff d past settled)

end

def origin : Past := ⟨fun _ => [], false⟩

theorem boot_settled (spaces : AddressSpaces) (cpu : Cpu) : (boot spaces cpu).Settled origin :=
  ⟨Machine.boot_grounded spaces cpu, fun _ block => by cases block⟩

-- In every run, no slot ever holds a context of EL1 or of a place its task never
-- stood at, and no eret into a task enters EL1, exactly if no preempting tick is
-- served in a drop and no block makes its eret after an interrupt behind its
-- write to SPSR_EL1.
theorem unprivileged_iff_undisturbed (spaces : AddressSpaces) (address : Static → UInt64) (cpu : Cpu) (doings : List Doing) :
    Run.Always (Run.recorded (next spaces address) remember)
        (fun state => Machine.Unprivileged state.1.machine.kernel state.2.stood) (boot spaces cpu, origin) doings ∧
      Run.Along (Run.recorded (next spaces address) remember)
        (fun state doing => state.1.Erets (state.1.next spaces address doing) doing →
          isEl0 (state.1.next spaces address doing).machine.cpu.pstate = true) (boot spaces cpu, origin) doings ↔
    Run.Along (Run.recorded (next spaces address) remember) (fun state doing => ¬ state.1.Disturbed state.2 doing)
      (boot spaces cpu, origin) doings := by
  refine Run.always_and_along_iff _ (fun _ _ => True) _ _ (fun state => state.1.Settled state.2) _ ?_ ?_ _ doings
    (boot_settled spaces cpu) (Machine.boot_unprivileged spaces cpu) (Run.along_of_forall _ _ (fun _ _ => trivial) _ _)
  · intro state doing settled _ _ calm
    exact settled_step spaces address state.1 state.2 settled doing calm
  · intro state doing settled _ unprivileged
    exact undisturbed_step_iff spaces address state.1 state.2 settled unprivileged doing

-- The timer fires while the kernel's own code runs.
def tickWithin : Doing := .event (.el1 { Trap.tick (fun _ => 0) 0 with pstate := 0x5 })

-- Two tasks of a preemptive session, and the timer fires before the eret into
-- the first.
def interruptedDrop : List Doing :=
  [.event (.spawnAt 1 one_root), .event (.spawnAt 2 two_root), .event .arm, .event (.drop true), tickWithin]

-- A task of a session that does not preempt, and the timer fires behind the
-- block's first instruction. The rest of the block runs up to its eret.
def interruptedBlock : List Doing :=
  [.event (.spawnAt 1 one_root), .event (.drop true), .enterBlock fun _ => 0, .instr, tickWithin] ++ List.replicate 21 .instr

theorem tick_in_drop_saves_el1 :
    ¬ Run.Always (Run.recorded (next flat fun _ => 0) remember)
        (fun state => Machine.Unprivileged state.1.machine.kernel state.2.stood) (boot flat coldCpu, origin) interruptedDrop ∧
      ¬ Run.Along (Run.recorded (next flat fun _ => 0) remember)
        (fun state doing => state.1.Erets (state.1.next flat (fun _ => 0) doing) doing →
          isEl0 (state.1.next flat (fun _ => 0) doing).machine.cpu.pstate = true) (boot flat coldCpu, origin)
        (interruptedBlock ++ [.instr]) := by
  constructor
  · intro always
    have last := (Run.always_last _ _ _ _ always).level 1
    rw [Run.exec_recorded, next, Machine.next_direct] at last
    exact absurd last (by decide +kernel)
  · intro along
    obtain ⟨_, last, _⟩ := (Run.along_append _ _ _ _ _).mp along
    have descent := Run.exec_recorded (next flat fun _ => 0) remember (boot flat coldCpu, origin) interruptedBlock
    rw [descent, next, Machine.next_direct] at last
    exact absurd (last ⟨[], by decide +kernel⟩) (by decide +kernel)

end Descent

end Opal
