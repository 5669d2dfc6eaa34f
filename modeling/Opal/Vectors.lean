import Opal.User

set_option autoImplicit false

namespace Opal

def ecSvc64 : UInt64 := 0x15
def ecDabtLowerEl : UInt64 := 0x24
def ecBrk64 : UInt64 := 0x3c

def exceptionClass (esr : UInt64) : UInt64 := (esr >>> 26) &&& 0x3f

-- irqId is what the GIC acknowledges, timerFired the virtual timer's ISTATUS.
structure Device where
  irqId : Nat
  timerFired : Bool

def timerIrq : Nat := 27

-- Any other class ends in die.
def handleSync (k : Kernel) (mem : UserMem) (frame : TrapFrame) : Outcome :=
  let ec := exceptionClass frame.esr
  if ec = ecBrk64 then .resumed k mem { frame with elr := frame.elr + 4 }
  else if ec = ecSvc64 then .resumed k mem frame
  else .parked .fatal k

def killTaskFromEl0 (spaces : AddressSpaces) (k : Kernel) (mem : UserMem) (frame : TrapFrame) : Outcome :=
  let result := k.killCurrentTask frame
  if result.1 then .resumed result.2.1 mem result.2.2
  else .toMonitor (returnToMonitor spaces (condemnLowHalf spaces { result.2.1 with preempt := false }))

def handleSyncFromEl0 (spaces : AddressSpaces) (k : Kernel) (mem : UserMem) (frame : TrapFrame) : Outcome :=
  if exceptionClass frame.esr = ecSvc64 then handleSvcFromEl0 spaces k mem frame
  else killTaskFromEl0 spaces k mem frame

def onTick (k : Kernel) : Kernel := { k with ticks := k.ticks + 1 }

-- What handle_irq and handle_fiq do alike for the timer.
def serviceTick (k : Kernel) (mem : UserMem) (frame : TrapFrame) : Outcome :=
  let k := (onTick k).wakeSleepers
  if k.preempt = true ∧ k.currentTid ≠ 0 then
    let result := k.saveAndSwitch frame
    if result.1 then .resumed { result.2.1 with preempts := result.2.1.preempts + 1 } mem result.2.2
    else .resumed result.2.1 mem result.2.2
  else .resumed k mem frame

def handleIrq (k : Kernel) (mem : UserMem) (frame : TrapFrame) (device : Device) : Outcome :=
  if device.irqId ≥ 1020 then .resumed k mem frame
  else if device.irqId = timerIrq then serviceTick k mem frame
  else .resumed k mem frame

-- No interrupt of the AIC has a handler.
def handleFiq (k : Kernel) (mem : UserMem) (frame : TrapFrame) (device : Device) : Outcome :=
  if device.timerFired then serviceTick k mem frame else .resumed k mem frame

def handle (spaces : AddressSpaces) (k : Kernel) (mem : UserMem) (frame : TrapFrame) (kind : Kind) (source : Source)
    (device : Device) : Outcome :=
  match kind, source with
  | .synchronous, .currentSpElx => handleSync k mem frame
  | .irq, .currentSpElx => handleIrq k mem frame device
  | .fiq, .currentSpElx => handleFiq k mem frame device
  | .sError, .currentSpElx => .parked .fatal k
  | .synchronous, .lowerAArch64 => handleSyncFromEl0 spaces k mem frame
  | .irq, .lowerAArch64 => handleIrq k mem frame device
  | .fiq, .lowerAArch64 => handleFiq k mem frame device
  | .sError, .lowerAArch64 => .parked .fatal k
  | _, _ => .parked .fatal k

-- OOPS comes down only where the handler returns: the monitor loop and the
-- parked core are never returned from.
def exceptionDispatch (spaces : AddressSpaces) (oops : Bool) (k : Kernel) (mem : UserMem) (frame : TrapFrame)
    (kind source : UInt64) (device : Device) : Bool × Outcome :=
  if oops then (true, .parked .nested k)
  else
    match handle spaces k mem frame (Kind.fromRaw kind) (Source.fromRaw source) device with
    | .resumed k mem frame => (false, .resumed k mem frame)
    | .toMonitor k => (true, .toMonitor k)
    | .parked cause k => (true, .parked cause k)

end Opal
