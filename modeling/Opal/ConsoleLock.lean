import Opal.Guard
import Opal.Saved
import Opal.Run

set_option autoImplicit false

namespace Opal

-- PSTATE.DAIF: which exceptions are held back.
structure Daif where
  d : Bool
  a : Bool
  i : Bool
  f : Bool
  deriving DecidableEq, Repr

namespace Daif

-- As reset and every exception entry leave it.
def all : Daif := ⟨true, true, true, true⟩

-- As the eret into a fresh user program leaves it: SPSR is 0.
def clear : Daif := ⟨false, false, false, false⟩

-- daif_mask_save's msr DAIFSet, #3, which masks IRQ and FIQ.
def masked (daif : Daif) : Daif := { daif with i := true, f := true }

def permits (daif : Daif) : Kind → Bool
  | .synchronous => true
  | .irq => !daif.i
  | .fiq => !daif.f
  | .sError => !daif.a

end Daif

-- How far a flow of control has got in console_print, instruction by
-- instruction. bytes of the message are still to be written, and prev is the
-- mask that daif_mask_save has read. leave is the return to the caller.
inductive Point where
  | outside
  | oops (bytes : Nat)
  | bypass (bytes : Nat)
  | save (bytes : Nat)
  | mask (prev : Daif) (bytes : Nat)
  | acquire (prev : Daif) (bytes : Nat)
  | spin (prev : Daif) (bytes : Nat)
  | write (prev : Daif) (bytes : Nat)
  | unlock (prev : Daif)
  | restore (prev : Daif)
  | leave
  deriving DecidableEq

-- Between the call of SpinLock::with and its return.
def Point.inWith : Point → Bool
  | .outside | .oops _ | .bypass _ => false
  | _ => true

-- Between the compare-exchange that took the lock and the store that drops it.
def Point.holds : Point → Bool
  | .write .. | .unlock _ => true
  | _ => false

theorem Point.not_holds (point : Point) (outside : point.inWith = false) : point.holds = false := by
  cases point with
  | write | unlock => cases outside
  | _ => rfl

-- How far the handler of an exception has got. entry is all before the swap of
-- OOPS, served the way back to the stub, leaving the way from oops_exit to the
-- eret.
inductive Stage where
  | entry
  | body
  | served
  | leaving
  | nested
  | fatal
  deriving DecidableEq, Repr

structure Exception where
  kind : Kind
  source : Source
  frame : TrapFrame
  device : Device

-- A tick that service_tick answers with save_and_switch.
def Exception.Preempts (e : Exception) (k : Kernel) : Prop :=
  e.source = .currentSpElx ∧ (e.kind = .irq ∧ e.device.irqId = timerIrq ∨ e.kind = .fiq ∧ e.device.timerFired = true) ∧
    k.preempt = true ∧ k.currentTid ≠ 0

instance (e : Exception) (k : Kernel) : Decidable (e.Preempts k) :=
  inferInstanceAs (Decidable (_ ∧ _))

-- kernel is kmain, the monitor loop with its commands, and the drops. raised
-- says whether the panic handler has raised OOPS yet. astray is wherever a
-- return address leads that was read off a wrong stack.
inductive Code where
  | kernel
  | user
  | handler (stage : Stage) (e : Exception)
  | panic (raised : Bool)
  | astray

namespace Code

-- It reports a catastrophe, and OOPS has to be up.
def alarmed : Code → Bool
  | .handler .body _ | .handler .served _ | .handler .nested _ | .handler .fatal _ => true
  | .panic raised => raised
  | _ => false

-- It will take OOPS down.
def standsDown : Code → Bool
  | .handler .body _ | .handler .served _ => true
  | _ => false

-- Handlers do not print before their swap of OOPS or after oops_exit.
def prints : Code → Bool
  | .kernel => true
  | code => code.alarmed

def source : Code → Source
  | .user => .lowerAArch64
  | _ => .currentSpElx

end Code

-- A flow of control: the program, the mask it runs under, and where in its
-- printing it is. called is the mask at its last call of SpinLock::with, a
-- history variable, and lost says that the calls it is in lie on another stack
-- than SP is on.
structure Flow where
  code : Code
  daif : Daif
  point : Point
  called : Daif
  lost : Bool

namespace Flow

def fresh (code : Code) (daif : Daif) : Flow := ⟨code, daif, .outside, daif, false⟩

-- With SP at the top of its task's kernel stack. A drop that is not in
-- console_print has no call to return from, and EL0 keeps none on that stack.
def moved (flow : Flow) : Flow :=
  match flow.point with
  | .outside => flow
  | _ => { flow with lost := true }

-- The return of SpinLock::with and of console_print.
def ret (flow : Flow) : Flow :=
  if flow.lost then { flow with code := .astray, point := .outside } else { flow with point := .outside }

end Flow

-- The one core. interrupted holds the flows whose frames lie on the kernel
-- stack, the last one first, and slots the flows saved in the task table.
structure Core where
  oops : Bool
  locked : Bool
  running : Flow
  interrupted : List Flow
  slots : Nat → Flow
  kernel : Kernel
  mem : UserMem

-- One instruction of the running flow, the beginning of a print, the kernel's
-- work between prints (work is any change it makes to the scheduler or to
-- user memory; irqMask is its msr DAIFClr, #2 and msr DAIFSet, #2; enter is
-- the eret of a drop), an exception, or a panic. spurious lets the weak
-- compare-exchange fail.
inductive Tick where
  | instruction (spurious : Bool)
  | print (bytes : Nat)
  | work (k : Kernel) (mem : UserMem)
  | spawn (args : Kernel.SpawnArgs)
  | irqMask (masked : Bool)
  | enter
  | exception (kind : Kind) (frame : TrapFrame) (device : Device)
  | panic

namespace Core

def boot (k : Kernel) (mem : UserMem) : Core where
  oops := false
  locked := false
  running := .fresh .kernel .all
  interrupted := []
  slots := fun _ => .fresh .user .clear
  kernel := k
  mem := mem

def goto (core : Core) (point : Point) : Core := { core with running := { core.running with point := point } }

def become (core : Core) (code : Code) : Core := { core with running := { core.running with code := code } }

-- What a handler does to the kernel, at once. A switch saves the frame under
-- the handler in the old task's slot, puts the new task's in its place and moves
-- SP, whether the new task is another one or the old one again. The monitor loop is entered on the handler's own stack, so nothing interrupted
-- is ever returned to.
def serve (spaces : AddressSpaces) (core : Core) (e : Exception) : Core :=
  match handle spaces core.kernel core.mem e.frame e.kind e.source e.device with
  | .resumed k mem _ =>
      let core' := { core with kernel := k, mem := mem }.become (.handler .served e)
      if k.dispatches = core.kernel.dispatches then core'
      else
        match core.interrupted with
        | [] => core'
        | flow :: rest =>
            let slots := Function.update core.slots core.kernel.currentTid flow
            { core' with slots := slots, interrupted := (slots k.currentTid).moved :: rest }
  | .toMonitor k => { core with kernel := k, running := .fresh .kernel core.running.daif, interrupted := [] }
  | .parked _ k => { core with kernel := k }.become (.handler .fatal e)

def eret (core : Core) : Core :=
  match core.interrupted with
  | [] => core
  | flow :: rest => { core with running := flow, interrupted := rest }

-- Outside of console_print only the instructions that touch OOPS, the frames
-- or the mask matter.
def proceed (spaces : AddressSpaces) (core : Core) : Core :=
  match core.running.code with
  | .handler .entry e =>
      if core.oops then core.become (.handler .nested e)
      else { core with oops := true }.become (.handler .body e)
  | .handler .body e => core.serve spaces e
  | .handler .served e => { core with oops := false }.become (.handler .leaving e)
  | .handler .leaving _ => core.eret
  | .panic false => { core with oops := true }.become (.panic true)
  | _ => core

-- console_print with SpinLock::with in it.
def instruction (spaces : AddressSpaces) (core : Core) (spurious : Bool) : Core :=
  match core.running.point with
  | .outside => core.proceed spaces
  | .oops bytes =>
      if core.oops then core.goto (.bypass bytes)
      else { core with running := { core.running with point := .save bytes, called := core.running.daif } }
  | .bypass 0 => { core with running := core.running.ret }
  | .bypass (bytes + 1) => core.goto (.bypass bytes)
  | .save bytes => core.goto (.mask core.running.daif bytes)
  | .mask prev bytes =>
      { core with running := { core.running with point := .acquire prev bytes, daif := core.running.daif.masked } }
  | .acquire prev bytes =>
      if core.locked || spurious then core.goto (.spin prev bytes)
      else { core with locked := true }.goto (.write prev bytes)
  | .spin prev bytes => if core.locked then core else core.goto (.acquire prev bytes)
  | .write prev 0 => core.goto (.unlock prev)
  | .write prev (bytes + 1) => core.goto (.write prev bytes)
  | .unlock prev => { core with locked := false }.goto (.restore prev)
  | .restore prev => { core with running := { core.running with point := .leave, daif := prev } }
  | .leave => { core with running := core.running.ret }

def atWork (core : Core) : Bool :=
  match core.running.code, core.running.point with
  | .kernel, .outside => true
  | _, _ => false

def mayPrint (core : Core) : Bool :=
  match core.running.point with
  | .outside => core.running.code.prints
  | _ => false

def inKernel (core : Core) : Bool :=
  match core.running.code with
  | .user => false
  | _ => true

def spawned (core : Core) (args : Kernel.SpawnArgs) : Core :=
  match core.kernel.spawn args with
  | (none, k) => { core with kernel := k }
  | (some tid, k) => { core with kernel := k, slots := Function.update core.slots tid (.fresh .user .clear) }

def take (core : Core) (kind : Kind) (frame : TrapFrame) (device : Device) : Core :=
  { core with
    running := .fresh (.handler .entry ⟨kind, core.running.code.source, frame, device⟩) .all
    interrupted := core.running :: core.interrupted }

def next (spaces : AddressSpaces) (core : Core) : Tick → Core
  | .instruction spurious => core.instruction spaces spurious
  | .print bytes => if core.mayPrint then core.goto (.oops bytes) else core
  | .work k mem => if core.atWork then { core with kernel := k, mem := mem } else core
  | .spawn args => if core.atWork then core.spawned args else core
  | .irqMask masked =>
      if core.atWork then { core with running := { core.running with daif := { core.running.daif with i := masked } } }
      else core
  | .enter => if core.atWork then { core with running := .fresh .user .clear } else core
  | .exception kind frame device => if core.running.daif.permits kind then core.take kind frame device else core
  | .panic =>
      if core.inKernel then { core with running := { core.running with code := .panic false, point := .outside } }
      else core

-- The exception that the running handler is about to act on.
def serving (core : Core) : Option Exception :=
  match core.running.code, core.running.point with
  | .handler .body e, .outside => some e
  | _, _ => none

def PreemptsKernel (core : Core) : Tick → Prop
  | .instruction _ => ∃ e ∈ core.serving, e.Preempts core.kernel
  | _ => False

instance (core : Core) : DecidablePred core.PreemptsKernel
  | .instruction _ => inferInstanceAs (Decidable (∃ e ∈ core.serving, e.Preempts core.kernel))
  | .print _ | .work .. | .spawn _ | .irqMask _ | .enter | .exception .. | .panic => .isFalse id

end Core

-- Only EL0's own calls and faults end in the monitor, and only a preempting
-- tick switches from the kernel's own code.
section
variable (spaces : AddressSpaces) (k : Kernel) (mem : UserMem) (frame : TrapFrame) (device : Device)

theorem handle_to_monitor (kind : Kind) (source : Source) (k' : Kernel)
    (ends : handle spaces k mem frame kind source device = .toMonitor k') : source = .lowerAArch64 := by
  cases source with
  | lowerAArch64 => rfl
  | currentSpElx =>
      rcases el1_outcome spaces k mem frame kind device with ⟨_, _, _, resumes⟩ | ⟨_, _, _, parks⟩
      · rw [resumes] at ends
        cases ends
      · rw [parks] at ends
        cases ends
  | currentSpEl0 => cases kind <;> cases ends
  | lowerAArch32 => cases kind <;> cases ends

theorem el1_stays (kind : Kind) (k' : Kernel) (mem' : UserMem) (frame' : TrapFrame)
    (quiet : ¬ ((kind = .irq ∧ device.irqId = timerIrq ∨ kind = .fiq ∧ device.timerFired = true) ∧ k.preempt = true ∧
      k.currentTid ≠ 0))
    (resumed : handle spaces k mem frame kind .currentSpElx device = .resumed k' mem' frame') : k'.dispatches = k.dispatches := by
  cases kind with
  | synchronous =>
      simp only [handle, handleSync] at resumed
      split_ifs at resumed
      · obtain ⟨rfl, -, -⟩ := resumed
        rfl
      · obtain ⟨rfl, -, -⟩ := resumed
        rfl
  | irq =>
      simp only [handle, handleIrq] at resumed
      split_ifs at resumed with _ timer
      · obtain ⟨rfl, -, -⟩ := resumed
        rfl
      · have stays := (tick_saves_nothing k mem frame fun preempts => quiet ⟨.inl ⟨rfl, timer⟩, preempts⟩).2
        rwa [resumed] at stays
      · obtain ⟨rfl, -, -⟩ := resumed
        rfl
  | fiq =>
      simp only [handle, handleFiq] at resumed
      split_ifs at resumed with fired
      · have stays := (tick_saves_nothing k mem frame fun preempts => quiet ⟨.inr ⟨rfl, fired⟩, preempts⟩).2
        rwa [resumed] at stays
      · obtain ⟨rfl, -, -⟩ := resumed
        rfl
  | sError => cases resumed

end

namespace Code

-- What runs on top of an interrupted flow.
def handles : Code → Bool
  | .kernel | .user | .astray => false
  | _ => true

end Code

namespace Flow

-- The mask within SpinLock::with.
def Masks (flow : Flow) : Prop :=
  match flow.point with
  | .outside | .oops _ | .bypass _ => True
  | .save _ | .leave => flow.daif = flow.called
  | .mask prev _ => prev = flow.called ∧ flow.daif = flow.called
  | .acquire prev _ | .spin prev _ | .write prev _ | .unlock prev | .restore prev =>
      prev = flow.called ∧ flow.daif.i = true ∧ flow.daif.f = true

-- It does not go near the lock, and prints only what it may print with OOPS up.
structure Quiet (flow : Flow) : Prop where
  unlocked : flow.point.inWith = false
  reports : flow.point ≠ .outside → flow.code.alarmed = true

-- The flow under all frames: the lock is its own or nobody's.
def Base (locked : Bool) (flow : Flow) : Prop :=
  match flow.code with
  | .kernel => flow.Masks ∧ locked = flow.point.holds
  | .user => flow.point = .outside ∧ locked = false
  | .panic _ => flow.Quiet ∧ (locked = true → flow.daif.i = true ∧ flow.daif.f = true)
  | .handler .. | .astray => False

-- A user program, as its task's slot holds it.
structure AtEl0 (flow : Flow) : Prop where
  user : flow.code = .user
  outside : flow.point = .outside
  home : flow.lost = false

structure Handling (flow : Flow) : Prop where
  masked : flow.daif = .all
  quiet : flow.Quiet
  handles : flow.code.handles = true

-- The exception that flow serves is one of below.
def Struck (flow below : Flow) : Prop :=
  ∀ e, flow.code = .handler .entry e ∨ flow.code = .handler .body e → e.source = below.code.source

def Stacked (locked : Bool) : Flow → List Flow → Prop
  | flow, [] => flow.Base locked
  | flow, below :: rest =>
      flow.Handling ∧ flow.Struck below ∧
        (flow.code.standsDown = true → ∀ other ∈ below :: rest, other.code.alarmed = false) ∧ Stacked locked below rest

theorem masks_hold (flow : Flow) (masks : flow.Masks) (holds : flow.point.holds = true) :
    flow.daif.i = true ∧ flow.daif.f = true := by
  unfold Masks at masks
  cases at_ : flow.point with
  | write | unlock =>
      rw [at_] at masks
      exact masks.2
  | _ =>
      rw [at_] at holds
      cases holds

theorem Base.unlocked (locked : Bool) (flow : Flow) (base : flow.Base locked)
    (reached : flow.code = .user ∨ ¬ (flow.daif.i = true ∧ flow.daif.f = true)) : locked = false := by
  unfold Base at base
  cases code : flow.code with
  | kernel =>
      rw [code] at base
      cases held : locked with
      | false => rfl
      | true =>
          rcases reached with user | unmasked
          · rw [code] at user
            cases user
          · exact absurd (masks_hold flow base.1 (base.2 ▸ held)) unmasked
  | user =>
      rw [code] at base
      exact base.2
  | panic raised =>
      rw [code] at base
      cases held : locked with
      | false => rfl
      | true =>
          rcases reached with user | unmasked
          · rw [code] at user
            cases user
          · exact absurd (base.2 held) unmasked
  | handler | astray =>
      rw [code] at base
      exact base.elim

theorem Base.in_with (locked : Bool) (flow : Flow) (base : flow.Base locked) (within : flow.point.inWith = true) :
    flow.code = .kernel := by
  unfold Base at base
  cases code : flow.code with
  | kernel => rfl
  | user =>
      rw [code] at base
      rw [base.1] at within
      cases within
  | panic raised =>
      rw [code] at base
      rw [base.1.unlocked] at within
      cases within
  | handler | astray =>
      rw [code] at base
      exact base.elim

theorem Stacked.in_with (locked : Bool) (flow : Flow) (rest : List Flow) (stacked : flow.Stacked locked rest)
    (within : flow.point.inWith = true) : flow.code = .kernel ∧ rest = [] ∧ flow.Masks ∧ locked = flow.point.holds := by
  cases rest with
  | nil =>
      have kernel := Base.in_with locked flow stacked within
      have base : flow.Base locked := stacked
      rw [Base, kernel] at base
      exact ⟨kernel, rfl, base⟩
  | cons below rest =>
      have quiet := stacked.1.quiet.unlocked
      rw [within] at quiet
      cases quiet

theorem Stacked.prints (locked : Bool) (flow : Flow) (rest : List Flow) (stacked : flow.Stacked locked rest)
    (printing : flow.point ≠ .outside) : flow.code.prints = true := by
  cases rest with
  | nil =>
      have base : flow.Base locked := stacked
      unfold Base at base
      cases code : flow.code with
      | kernel => rfl
      | user =>
          rw [code] at base
          exact absurd base.1 printing
      | panic raised =>
          rw [code] at base
          have alarmed := base.1.reports printing
          rw [code] at alarmed
          exact alarmed
      | handler | astray =>
          rw [code] at base
          exact base.elim
  | cons below rest =>
      have alarmed := stacked.1.quiet.reports printing
      cases code : flow.code with
      | kernel => rfl
      | _ =>
          rw [code] at alarmed
          exact alarmed

theorem Stacked.kernel (locked : Bool) (flow : Flow) (rest : List Flow) (stacked : flow.Stacked locked rest)
    (kernel : flow.code = .kernel) : rest = [] ∧ flow.Masks ∧ locked = flow.point.holds := by
  cases rest with
  | nil =>
      have base : flow.Base locked := stacked
      rw [Base, kernel] at base
      exact ⟨rfl, base⟩
  | cons below rest =>
      have handles := stacked.1.handles
      rw [kernel] at handles
      cases handles

theorem Stacked.top (locked : Bool) (flow flow' : Flow) (rest : List Flow) (stacked : flow.Stacked locked rest)
    (base : flow.Base locked → flow'.Base locked) (handling : flow.Handling → flow'.Handling)
    (struck : ∀ e, flow'.code = .handler .entry e ∨ flow'.code = .handler .body e →
      flow.code = .handler .entry e ∨ flow.code = .handler .body e)
    (down : flow'.code.standsDown = true → flow.code.standsDown = true ∨ ∀ other ∈ rest, other.code.alarmed = false) :
    flow'.Stacked locked rest := by
  cases rest with
  | nil => exact base stacked
  | cons below rest =>
      obtain ⟨handles, hit, calm, lower⟩ := stacked
      refine ⟨handling handles, fun e code => hit e (struck e code), fun going => ?_, lower⟩
      rcases down going with before | all
      · exact calm before
      · exact all

end Flow

namespace Core

structure Sound (core : Core) : Prop where
  stacked : core.running.Stacked core.locked core.interrupted
  home : core.running.lost = false ∧ ∀ flow ∈ core.interrupted, flow.lost = false
  alarm : ∀ flow ∈ core.running :: core.interrupted, flow.code.alarmed = true → core.oops = true
  slots : ∀ tid, (core.slots tid).AtEl0

theorem fresh_user : (Flow.fresh .user .clear).AtEl0 := ⟨rfl, rfl, rfl⟩

section
variable (core : Core) (sound : core.Sound)
include sound

theorem alone_sound (core' : Core) (alone : core'.interrupted = []) (calm : core'.running.code.alarmed = false)
    (home : core'.running.lost = false) (slots : core'.slots = core.slots) (base : core'.running.Base core'.locked) :
    core'.Sound where
  stacked := by
    rw [alone]
    exact base
  home := by
    rw [alone]
    exact ⟨home, fun _ none => (by cases none)⟩
  alarm := fun flow member alarmed => by
    rw [alone] at member
    rw [List.mem_singleton.mp member, calm] at alarmed
    cases alarmed
  slots := by
    rw [slots]
    exact sound.slots

theorem within_sound (core' : Core) (within : core.running.point.inWith = true) (same : core'.interrupted = core.interrupted)
    (code : core'.running.code = core.running.code) (lost : core'.running.lost = core.running.lost)
    (slots : core'.slots = core.slots) (masks : core'.running.Masks) (held : core'.locked = core'.running.point.holds) :
    core'.Sound := by
  obtain ⟨kernel, alone, -, -⟩ := sound.stacked.in_with _ _ _ within
  rw [kernel] at code
  refine alone_sound core sound core' (same.trans alone) (by rw [code]; rfl) (lost.trans sound.home.1) slots ?_
  rw [Flow.Base, code]
  exact ⟨masks, held⟩

theorem quietly_sound (point : Point) (before : core.running.point.inWith = false) (after : point.inWith = false)
    (may : point = .outside ∨ core.running.code.prints = true) : (core.goto point).Sound where
  stacked := by
    refine sound.stacked.top _ _ _ _ (fun base => ?_) (fun handling => ?_) (fun _ code => code) .inl
    · unfold Flow.Base at base ⊢
      dsimp only [goto]
      cases code : core.running.code with
      | kernel =>
          rw [code] at base
          refine ⟨?_, base.2.trans ?_⟩
          · unfold Flow.Masks
            cases point <;> trivial
          · rw [Point.not_holds _ before, Point.not_holds _ after]
      | user =>
          rw [code] at base may
          exact ⟨may.resolve_right (by simp [Code.prints, Code.alarmed]), base.2⟩
      | panic raised =>
          rw [code] at base may
          exact ⟨⟨after, fun printing => may.resolve_left printing⟩, base.2⟩
      | handler | astray =>
          rw [code] at base
          exact base.elim
    · refine ⟨handling.masked, ⟨after, fun printing => ?_⟩, handling.handles⟩
      have prints := may.resolve_left printing
      have handles := handling.handles
      dsimp only [goto]
      cases code : core.running.code with
      | kernel =>
          rw [code] at handles
          cases handles
      | _ =>
          rw [code] at prints
          exact prints
  home := sound.home
  alarm := fun flow member alarmed => by
    rcases List.mem_cons.mp member with rfl | deeper
    · exact sound.alarm core.running (List.mem_cons_self ..) alarmed
    · exact sound.alarm flow (List.mem_cons_of_mem _ deeper) alarmed
  slots := sound.slots

theorem ret_home : core.running.ret = { core.running with point := .outside } := if_neg (by rw [sound.home.1]; exact Bool.false_ne_true)

theorem within_state (point : Point) (at_ : core.running.point = point) (within : point.inWith = true) :
    ({ core.running with point := point } : Flow).Masks ∧ core.locked = point.holds := by
  subst at_
  exact (sound.stacked.in_with _ _ _ within).2.2

theorem print_sound (spaces : AddressSpaces) (spurious : Bool) (printing : core.running.point ≠ .outside) :
    (core.instruction spaces spurious).Sound := by
  have prints := sound.stacked.prints _ _ _ printing
  unfold instruction
  cases at_ : core.running.point with
  | outside => exact absurd at_ printing
  | oops bytes =>
      dsimp only
      split_ifs with raised
      · exact quietly_sound core sound _ (by rw [at_]; rfl) rfl (.inr prints)
      · have kernel : core.running.code = .kernel := by
          cases code : core.running.code with
          | kernel => rfl
          | _ =>
              rw [code] at prints
              refine absurd (sound.alarm core.running (List.mem_cons_self ..) ?_) raised
              rw [code]
              exact prints
        obtain ⟨alone, -, held⟩ := sound.stacked.kernel _ _ _ kernel
        refine alone_sound core sound _ alone (by dsimp only; rw [kernel]; rfl) sound.home.1 rfl ?_
        rw [Flow.Base, kernel]
        rw [at_] at held
        exact ⟨rfl, held⟩
  | bypass bytes =>
      cases bytes with
      | zero =>
          dsimp only
          rw [ret_home core sound]
          exact quietly_sound core sound _ (by rw [at_]; rfl) rfl (.inl rfl)
      | succ bytes => exact quietly_sound core sound _ (by rw [at_]; rfl) rfl (.inr prints)
  | save bytes =>
      obtain ⟨masks, held⟩ := within_state core sound _ at_ rfl
      exact within_sound core sound _ (by rw [at_]; rfl) rfl rfl rfl rfl ⟨masks, masks⟩ held
  | mask prev bytes =>
      obtain ⟨masks, held⟩ := within_state core sound _ at_ rfl
      exact within_sound core sound _ (by rw [at_]; rfl) rfl rfl rfl rfl ⟨masks.1, rfl, rfl⟩ held
  | acquire prev bytes =>
      obtain ⟨masks, held⟩ := within_state core sound _ at_ rfl
      dsimp only
      split_ifs
      · exact within_sound core sound _ (by rw [at_]; rfl) rfl rfl rfl rfl masks held
      · exact within_sound core sound _ (by rw [at_]; rfl) rfl rfl rfl rfl masks rfl
  | spin prev bytes =>
      obtain ⟨masks, held⟩ := within_state core sound _ at_ rfl
      dsimp only
      split_ifs
      · exact sound
      · exact within_sound core sound _ (by rw [at_]; rfl) rfl rfl rfl rfl masks held
  | write prev bytes =>
      obtain ⟨masks, held⟩ := within_state core sound _ at_ rfl
      cases bytes with
      | zero => exact within_sound core sound _ (by rw [at_]; rfl) rfl rfl rfl rfl masks held
      | succ bytes => exact within_sound core sound _ (by rw [at_]; rfl) rfl rfl rfl rfl masks held
  | unlock prev =>
      obtain ⟨masks, -⟩ := within_state core sound _ at_ rfl
      exact within_sound core sound _ (by rw [at_]; rfl) rfl rfl rfl rfl masks rfl
  | restore prev =>
      obtain ⟨masks, held⟩ := within_state core sound _ at_ rfl
      exact within_sound core sound _ (by rw [at_]; rfl) rfl rfl rfl rfl masks.1 held
  | leave =>
      obtain ⟨-, held⟩ := within_state core sound _ at_ rfl
      dsimp only
      rw [ret_home core sound]
      exact within_sound core sound _ (by rw [at_]; rfl) rfl rfl rfl rfl trivial held

theorem become_sound (code : Code) (quiet : core.running.point = .outside) (handles : code.handles = true)
    (base : core.running.Base core.locked → (core.become code).running.Base core.locked)
    (struck : ∀ e, code = .handler .entry e ∨ code = .handler .body e → False)
    (alarmed : code.alarmed = true → core.oops = true)
    (down : code.standsDown = true → core.running.code.standsDown = true) : (core.become code).Sound where
  stacked := by
    refine sound.stacked.top _ _ _ _ base (fun handling => ?_) (fun e now => (struck e now).elim) fun going => .inl (down going)
    exact ⟨handling.masked, ⟨handling.quiet.unlocked, fun printing => absurd quiet printing⟩, handles⟩
  home := sound.home
  alarm := fun flow member rings => by
    rcases List.mem_cons.mp member with rfl | deeper
    · exact alarmed rings
    · exact sound.alarm flow (List.mem_cons_of_mem _ deeper) rings
  slots := sound.slots

theorem below_handler (stage : Stage) (e : Exception) (code : core.running.code = .handler stage e) :
    ∃ below rest, core.interrupted = below :: rest ∧ below.Stacked core.locked rest ∧ core.running.Handling ∧
      core.running.Struck below ∧
      (core.running.code.standsDown = true → ∀ other ∈ below :: rest, other.code.alarmed = false) := by
  have stacked := sound.stacked
  cases frames : core.interrupted with
  | nil =>
      rw [frames] at stacked
      have base : core.running.Base core.locked := stacked
      rw [Flow.Base, code] at base
      exact base.elim
  | cons below rest =>
      rw [frames] at stacked
      exact ⟨below, rest, rfl, stacked.2.2.2, stacked.1, stacked.2.1, stacked.2.2.1⟩

omit sound in
theorem el0_base (locked : Bool) (below : Flow) (rest : List Flow) (stacked : below.Stacked locked rest)
    (lower : below.code.source = .lowerAArch64) :
    rest = [] ∧ locked = false ∧ below.code = .user ∧ below.point = .outside := by
  have user : below.code = .user := by
    cases code : below.code with
    | user => rfl
    | _ =>
        rw [code] at lower
        cases lower
  cases rest with
  | nil =>
      have base : below.Base locked := stacked
      rw [Flow.Base, user] at base
      exact ⟨rfl, base.2, user, base.1⟩
  | cons lower rest =>
      have handles := stacked.1.handles
      rw [user] at handles
      cases handles

theorem serve_sound (spaces : AddressSpaces) (e : Exception) (code : core.running.code = .handler .body e)
    (quiet : core.running.point = .outside) (calm : ¬ e.Preempts core.kernel) : (core.serve spaces e).Sound := by
  obtain ⟨below, rest, frames, lower, handling, struck, -⟩ := below_handler core sound .body e code
  have source := struck e (.inr code)
  have raised : core.oops = true := sound.alarm core.running (List.mem_cons_self ..) (by rw [code]; rfl)
  have untouched (k : Kernel) (mem : UserMem) : ({ core with kernel := k, mem := mem } : Core).Sound :=
    ⟨sound.stacked, sound.home, sound.alarm, sound.slots⟩
  have bottom : core.running.Base core.locked → False := by
    intro base
    rw [Flow.Base, code] at base
    exact base
  unfold serve
  cases outcome : handle spaces core.kernel core.mem e.frame e.kind e.source e.device with
  | resumed k mem frame =>
      have onward : (({ core with kernel := k, mem := mem } : Core).become (.handler .served e)).Sound :=
        become_sound _ (untouched k mem) (.handler .served e) quiet rfl (fun base => (bottom base).elim)
          (fun e' now => by rcases now with now | now <;> cases now) (fun _ => raised) (fun _ => by dsimp only; rw [code]; rfl)
      dsimp only
      split_ifs with same
      · exact onward
      · have from_el0 : below.code.source = .lowerAArch64 := by
          cases below_code : below.code with
          | user => rfl
          | _ =>
              rw [below_code] at source
              change e.source = .currentSpElx at source
              rw [source] at outcome
              exact absurd (el1_stays spaces core.kernel core.mem e.frame e.device e.kind k mem frame
                (fun preempts => calm ⟨source, preempts⟩) outcome) same
        obtain ⟨alone, unlocked, user, outside⟩ := el0_base _ below rest lower from_el0
        have home : below.lost = false := sound.home.2 below (by rw [frames]; exact List.mem_cons_self)
        rw [frames, alone]
        dsimp only
        have saved (tid : Nat) : (Function.update core.slots core.kernel.currentTid below tid).AtEl0 := by
          by_cases old : tid = core.kernel.currentTid
          · rw [old, Function.update_self]
            exact ⟨user, outside, home⟩
          · rw [Function.update_of_ne old]
            exact sound.slots tid
        have stays (flow : Flow) (at_el0 : flow.AtEl0) : flow.moved = flow := by
          rw [Flow.moved, at_el0.outside]
        rw [stays _ (saved k.currentTid)]
        have next := saved k.currentTid
        refine ⟨⟨?_, ?_, ?_, ?_⟩, ⟨sound.home.1, ?_⟩, ?_, saved⟩
        · exact ⟨handling.masked, ⟨handling.quiet.unlocked, fun printing => absurd quiet printing⟩, rfl⟩
        · intro e' now
          rcases now with now | now <;> cases now
        · intro _ other member
          rw [List.mem_singleton.mp member, next.user]
          rfl
        · change Flow.Base core.locked _
          rw [unlocked, Flow.Base, next.user]
          exact ⟨next.outside, rfl⟩
        · intro flow member
          rw [List.mem_singleton.mp member]
          exact next.home
        · exact fun _ _ _ => raised
  | toMonitor k =>
      have lowest := handle_to_monitor _ _ _ _ _ _ _ _ outcome
      obtain ⟨-, unlocked, -⟩ := el0_base _ below rest lower (source.symm.trans lowest)
      exact alone_sound core sound _ rfl rfl rfl rfl ⟨trivial, unlocked⟩
  | parked cause k =>
      exact become_sound _ (untouched k core.mem) (.handler .fatal e) quiet rfl (fun base => (bottom base).elim)
        (fun e' now => by rcases now with now | now <;> cases now) (fun _ => raised) (fun down => by cases down)

theorem proceed_sound (spaces : AddressSpaces) (quiet : core.running.point = .outside)
    (calm : ∀ e, core.running.code = .handler .body e → ¬ e.Preempts core.kernel) : (core.proceed spaces).Sound := by
  have first (flow : Flow) (member : flow ∈ core.interrupted) : flow ∈ core.running :: core.interrupted :=
    List.mem_cons_of_mem _ member
  unfold proceed
  cases code : core.running.code with
  | kernel | user | astray => exact sound
  | panic raised =>
      cases raised with
      | true => exact sound
      | false =>
          refine become_sound { core with oops := true } ⟨sound.stacked, sound.home, fun _ _ _ => rfl, sound.slots⟩
            (.panic true) quiet rfl
            (fun base => ?_) (fun e now => by rcases now with now | now <;> cases now) (fun _ => rfl) (fun down => by cases down)
          rw [Flow.Base, code] at base
          exact ⟨⟨base.1.unlocked, fun _ => rfl⟩, base.2⟩
  | handler stage e =>
      have bottom : core.running.Base core.locked → False := by
        intro base
        rw [Flow.Base, code] at base
        exact base
      cases stage with
      | entry =>
          dsimp only
          split_ifs with raised
          · exact become_sound core sound (.handler .nested e) quiet rfl (fun base => (bottom base).elim)
              (fun e' now => by rcases now with now | now <;> cases now) (fun _ => raised) (fun down => by cases down)
          · refine ⟨sound.stacked.top _ _ _ _ (fun base => (bottom base).elim) (fun handling => ?_) (fun e' now => ?_) fun _ => ?_,
              sound.home, fun _ _ _ => rfl, sound.slots⟩
            · exact ⟨handling.masked, ⟨handling.quiet.unlocked, fun printing => absurd quiet printing⟩, rfl⟩
            · rcases now with now | now
              · cases now
              · cases now
                exact .inl code
            · refine .inr fun other member => Bool.eq_false_iff.mpr fun rings => ?_
              exact raised (sound.alarm other (first other member) rings)
      | body => exact serve_sound core sound spaces e code quiet (calm e code)
      | served =>
          obtain ⟨below, rest, frames, -, -, -, calm⟩ := below_handler core sound .served e code
          refine ⟨sound.stacked.top _ _ _ _ (fun base => (bottom base).elim) (fun handling => ?_) (fun e' now => ?_)
            (fun down => by cases down), sound.home, fun flow member rings => ?_, sound.slots⟩
          · exact ⟨handling.masked, ⟨handling.quiet.unlocked, fun printing => absurd quiet printing⟩, rfl⟩
          · rcases now with now | now <;> cases now
          · rcases List.mem_cons.mp member with rfl | deeper
            · cases rings
            · have silent := calm (by rw [code]; rfl) flow (frames ▸ deeper)
              rw [silent] at rings
              cases rings
      | leaving =>
          obtain ⟨below, rest, frames, lower, -⟩ := below_handler core sound .leaving e code
          dsimp only
          rw [eret, frames]
          have home := sound.home.2
          rw [frames] at home
          refine ⟨lower, ⟨home below List.mem_cons_self, fun flow deeper => home flow (List.mem_cons_of_mem _ deeper)⟩,
            fun flow member => sound.alarm flow ?_, sound.slots⟩
          exact first flow (frames ▸ member)
      | nested | fatal => exact sound

theorem spawned_sound (args : Kernel.SpawnArgs) : (core.spawned args).Sound := by
  unfold spawned
  rcases core.kernel.spawn args with ⟨_ | tid, k⟩
  · exact ⟨sound.stacked, sound.home, sound.alarm, sound.slots⟩
  · refine ⟨sound.stacked, sound.home, sound.alarm, fun other => ?_⟩
    dsimp only
    by_cases own : other = tid
    · rw [own, Function.update_self]
      exact fresh_user
    · rw [Function.update_of_ne own]
      exact sound.slots other

theorem take_sound (kind : Kind) (frame : TrapFrame) (device : Device) : (core.take kind frame device).Sound where
  stacked := by
    refine ⟨⟨rfl, ⟨rfl, fun printing => absurd rfl printing⟩, rfl⟩, fun e now => ?_, fun down => (by cases down), sound.stacked⟩
    rcases now with now | now
    · cases now
      rfl
    · cases now
  home := by
    refine ⟨rfl, fun flow member => ?_⟩
    rcases List.mem_cons.mp member with rfl | deeper
    · exact sound.home.1
    · exact sound.home.2 flow deeper
  alarm := fun flow member rings => by
    rcases List.mem_cons.mp member with rfl | deeper
    · cases rings
    · exact sound.alarm flow deeper rings
  slots := sound.slots

theorem panic_sound : ({ core with running := { core.running with code := .panic false, point := .outside } } : Core).Sound where
  stacked := by
    refine sound.stacked.top _ _ _ _ (fun base => ?_) (fun handling => ?_)
      (fun e now => by rcases now with now | now <;> cases now) fun down => by cases down
    · refine ⟨⟨rfl, fun printing => absurd rfl printing⟩, fun held => ?_⟩
      by_contra unmasked
      have unlocked := base.unlocked _ _ (.inr unmasked)
      rw [held] at unlocked
      cases unlocked
    · exact ⟨handling.masked, ⟨rfl, fun printing => absurd rfl printing⟩, rfl⟩
  home := sound.home
  alarm := fun flow member rings => by
    rcases List.mem_cons.mp member with rfl | deeper
    · cases rings
    · exact sound.alarm flow (List.mem_cons_of_mem _ deeper) rings
  slots := sound.slots

theorem at_work (working : core.atWork = true) : core.running.code = .kernel ∧ core.running.point = .outside ∧
    core.interrupted = [] ∧ core.locked = false := by
  unfold atWork at working
  cases code : core.running.code with
  | kernel =>
      cases at_ : core.running.point with
      | outside =>
          obtain ⟨alone, -, held⟩ := sound.stacked.kernel _ _ _ code
          rw [at_] at held
          exact ⟨rfl, rfl, alone, held⟩
      | _ =>
          rw [code, at_] at working
          cases working
  | _ =>
      rw [code] at working
      cases working

theorem next_sound (spaces : AddressSpaces) (tick : Tick) (calm : ¬ core.PreemptsKernel tick) :
    (core.next spaces tick).Sound := by
  cases tick with
  | instruction spurious =>
      by_cases outside : core.running.point = .outside
      · rw [next, instruction, outside]
        refine proceed_sound core sound spaces outside fun e code preempts => calm ⟨e, ?_, preempts⟩
        rw [Option.mem_def, serving, code, outside]
      · exact print_sound core sound spaces spurious outside
  | print bytes =>
      rw [next]
      split_ifs with may
      · unfold mayPrint at may
        cases at_ : core.running.point with
        | outside =>
            rw [at_] at may
            exact quietly_sound core sound _ (by rw [at_]; rfl) rfl (.inr may)
        | _ =>
            rw [at_] at may
            cases may
      · exact sound
  | work k mem =>
      rw [next]
      split_ifs
      · exact ⟨sound.stacked, sound.home, sound.alarm, sound.slots⟩
      · exact sound
  | spawn args =>
      rw [next]
      split_ifs
      · exact spawned_sound core sound args
      · exact sound
  | irqMask masked =>
      rw [next]
      split_ifs with working
      · obtain ⟨kernel, outside, alone, unlocked⟩ := at_work core sound working
        refine alone_sound core sound _ alone (by dsimp only; rw [kernel]; rfl) sound.home.1 rfl ?_
        rw [Flow.Base, kernel, Flow.Masks, outside]
        exact ⟨trivial, unlocked⟩
      · exact sound
  | enter =>
      rw [next]
      split_ifs with working
      · obtain ⟨-, -, alone, unlocked⟩ := at_work core sound working
        exact alone_sound core sound _ alone rfl rfl rfl ⟨rfl, unlocked⟩
      · exact sound
  | exception kind frame device =>
      rw [next]
      split_ifs
      · exact take_sound core sound kind frame device
      · exact sound
  | panic =>
      rw [next]
      split_ifs
      · exact panic_sound core sound
      · exact sound

end

-- A handler that nothing interrupts does what the dispatcher does.
theorem handler_dispatches (spaces : AddressSpaces) (core : Core) (e : Exception) (code : core.running.code = .handler .entry e)
    (outside : core.running.point = .outside) :
    let core' := Run.exec (next spaces) core (List.replicate 3 (.instruction false))
    match exceptionDispatch spaces core.oops core.kernel core.mem e.frame e.kind.raw e.source.raw e.device with
    | (oops, .resumed k mem _) =>
        core'.oops = oops ∧ core'.kernel = k ∧ core'.mem = mem ∧ core'.running.code = .handler .leaving e
    | (oops, .toMonitor k) => core'.oops = oops ∧ core'.kernel = k ∧ core'.running.code = .kernel ∧ core'.interrupted = []
    | (oops, .parked _ k) =>
        core'.oops = oops ∧ core'.kernel = k ∧
          (core'.running.code = .handler .nested e ∨ core'.running.code = .handler .fatal e) := by
  intro core'
  obtain ⟨oops, locked, ⟨_, daif, _, called, lost⟩, interrupted, slots, kernel, mem⟩ := core
  cases code
  cases outside
  unfold exceptionDispatch
  rw [kind_from_raw, source_from_raw]
  cases oops with
  | true => exact ⟨rfl, rfl, .inl rfl⟩
  | false =>
      have second : core' = Run.exec (next spaces)
          (serve spaces ⟨true, locked, ⟨.handler .body e, daif, .outside, called, lost⟩, interrupted, slots, kernel, mem⟩ e)
          [.instruction false] := rfl
      rw [second, if_neg Bool.false_ne_true]
      unfold serve
      cases outcome : handle spaces kernel mem e.frame e.kind e.source e.device with
      | resumed k mem' frame =>
          dsimp only
          split_ifs
          · exact ⟨rfl, rfl, rfl, rfl⟩
          · cases interrupted with
            | nil => exact ⟨rfl, rfl, rfl, rfl⟩
            | cons flow rest => exact ⟨rfl, rfl, rfl, rfl⟩
      | toMonitor k => exact ⟨rfl, rfl, rfl, rfl⟩
      | parked cause k => exact ⟨rfl, rfl, .inr rfl⟩

section
variable (spaces : AddressSpaces) (core : Core)

theorem writes_through (prev : Daif) (bytes : Nat) (writing : core.running.point = .write prev bytes) :
    Run.exec (next spaces) core (List.replicate (bytes + 1) (.instruction false)) = core.goto (.unlock prev) := by
  induction bytes generalizing core with
  | zero =>
      change core.instruction spaces false = _
      rw [instruction, writing]
  | succ bytes ih =>
      have first : core.next spaces (.instruction false) = core.goto (.write prev bytes) := by
        rw [next, instruction, writing]
      rw [List.replicate_succ, Run.exec_cons, first]
      exact ih (core.goto (.write prev bytes)) rfl

-- Left alone, kernel code that prints takes the lock, drops it and goes on
-- under its own mask.
theorem print_returns (bytes : Nat) (kernel : core.running.code = .kernel) (outside : core.running.point = .outside)
    (down : core.oops = false) (free : core.locked = false) (home : core.running.lost = false) :
    Run.exec (next spaces) core (.print bytes :: List.replicate (bytes + 8) (.instruction false)) =
      { core with running := { core.running with called := core.running.daif } } := by
  obtain ⟨oops, locked, ⟨_, daif, _, called, _⟩, interrupted, slots, k, mem⟩ := core
  cases kernel
  cases outside
  cases down
  cases free
  cases home
  let writing : Core := ⟨false, true, ⟨.kernel, daif.masked, .write daif bytes, daif, false⟩, interrupted, slots, k, mem⟩
  have split : List.replicate (bytes + 8) (Tick.instruction false) =
      List.replicate 4 (Tick.instruction false) ++ (List.replicate (bytes + 1) (Tick.instruction false) ++
        List.replicate 3 (Tick.instruction false)) := by
    rw [List.replicate_append_replicate, List.replicate_append_replicate]
    congr 1
    omega
  rw [Run.exec_cons, split, Run.exec_append, Run.exec_append]
  change Run.exec (next spaces) (Run.exec (next spaces) writing _) _ = _
  rw [writes_through spaces writing daif bytes rfl]
  rfl

end

-- A drop prints with IRQs unmasked, and the timer fires within SpinLock::with;
-- later is what follows.
def tickWithin (session : List Event) (later : List Tick) : List Tick :=
  let m := Run.exec (Machine.next flat fun _ => 0) (Machine.boot flat coldCpu) session
  [.work m.kernel m.mem, .irqMask false, .print 0, .instruction false, .instruction false,
    .exception .irq ({ Trap.tick (fun _ => 0) 0 with pstate := 0x5 }.frame 0) ⟨timerIrq, false⟩] ++
    List.replicate 4 (.instruction false) ++ later

end Core

end Opal
