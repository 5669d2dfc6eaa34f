import Mathlib.Algebra.GroupWithZero.Nat
import Mathlib.Logic.Function.Basic

set_option autoImplicit false

namespace Opal

instance neZeroRegisters : NeZero 31 := ⟨Nat.succ_ne_zero 30⟩

-- What the vector stub stores on the kernel stack and __vectors_restore
-- reloads: the general registers and the four per-exception registers. The
-- sp word is the handler's own SP before the frame was pushed.
@[ext] structure TrapFrame where
  x : Fin 31 → UInt64
  sp : UInt64
  elr : UInt64
  spsr : UInt64
  esr : UInt64
  far : UInt64

namespace TrapFrame

def empty : TrapFrame := ⟨fun _ => 0, 0, 0, 0, 0, 0⟩

def setX (frame : TrapFrame) (i : Fin 31) (value : UInt64) : TrapFrame :=
  { frame with x := Function.update frame.x i value }

@[simp] theorem set_x_same (frame : TrapFrame) (i : Fin 31) (value : UInt64) : (frame.setX i value).x i = value := by
  simp [setX]

theorem set_x_other (frame : TrapFrame) (i j : Fin 31) (value : UInt64) (apart : j ≠ i) :
    (frame.setX i value).x j = frame.x j := by
  simp [setX, Function.update_of_ne apart]

@[simp] theorem set_x_elr (frame : TrapFrame) (i : Fin 31) (value : UInt64) : (frame.setX i value).elr = frame.elr := rfl

@[simp] theorem set_x_spsr (frame : TrapFrame) (i : Fin 31) (value : UInt64) : (frame.setX i value).spsr = frame.spsr := rfl

@[simp] theorem set_x_sp (frame : TrapFrame) (i : Fin 31) (value : UInt64) : (frame.setX i value).sp = frame.sp := rfl

end TrapFrame

-- The four exception kinds and the four origins, as the stubs encode them.
inductive Kind where
  | synchronous
  | irq
  | fiq
  | sError
  deriving DecidableEq, Repr

inductive Source where
  | currentSpEl0
  | currentSpElx
  | lowerAArch64
  | lowerAArch32
  deriving DecidableEq, Repr

-- The macro arguments of the sixteen VECTOR_ENTRY expansions.
def Kind.raw : Kind → UInt64
  | .synchronous => 0
  | .irq => 1
  | .fiq => 2
  | .sError => 3

def Source.raw : Source → UInt64
  | .currentSpEl0 => 0
  | .currentSpElx => 1
  | .lowerAArch64 => 2
  | .lowerAArch32 => 3

def Kind.fromRaw : UInt64 → Kind
  | 0 => .synchronous
  | 1 => .irq
  | 2 => .fiq
  | _ => .sError

def Source.fromRaw : UInt64 → Source
  | 0 => .currentSpEl0
  | 1 => .currentSpElx
  | 2 => .lowerAArch64
  | _ => .lowerAArch32

@[simp] theorem kind_from_raw (kind : Kind) : Kind.fromRaw kind.raw = kind := by
  cases kind <;> rfl

@[simp] theorem source_from_raw (source : Source) : Source.fromRaw source.raw = source := by
  cases source <;> rfl

end Opal
