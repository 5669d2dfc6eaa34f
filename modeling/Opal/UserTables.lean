import Opal.Mmu

set_option autoImplicit false

namespace Opal

namespace Mmu

-- A program for the code page. Every caller passes a constant array that fits.
structure Image where
  bytes : List UInt8
  fits : bytes.length ≤ granule

def storeByte (mem : Memory) (pa : Nat) (byte : UInt8) : Memory :=
  let word := pa / 8 * 8
  let place := 256 ^ (pa % 8)
  let old := mem word
  store mem word (old / (place * 256) * (place * 256) + byte.toNat * place + old % place)

def copyBytes (mem : Memory) (pa : Nat) : List UInt8 → Memory
  | [] => mem
  | byte :: rest => copyBytes (storeByte mem pa byte) (pa + 1) rest

structure UserSpace where
  l0 : Nat
  l1 : Nat
  l2 : Nat
  l3 : Nat
  code : Nat
  stack : Nat
  deriving DecidableEq, Repr

def userCode : Nat := userCodeVa.toNat

def userStack : Nat := userStackVa.toNat

def wireUserTables (mem : Memory) (l0Pa l1Pa l2Pa l3Pa codePa stackPa : Nat) : Memory :=
  let mem := writeTable mem l0Pa (vaL0i userCode) (tableDesc l1Pa)
  let mem := writeTable mem l1Pa (vaL1i userCode) (tableDesc l2Pa)
  let mem := writeTable mem l2Pa (vaL2i userCode) (tableDesc l3Pa)
  let mem := writeTable mem l3Pa (vaL3i userCode) (pageDesc codePa .userRx)
  writeTable mem l3Pa (vaL3i userStack) (pageDesc stackPa .userRw)

-- Both builders copy the program and wire the tables. They differ in the
-- statics that they use.
def UserSpace.build (space : UserSpace) (mem : Memory) (prog : Image) : Nat × Memory :=
  (space.l0, wireUserTables (copyBytes mem space.code prog.bytes) space.l0 space.l1 space.l2 space.l3 space.code space.stack)

namespace Layout

variable (layout : Layout)

-- USER_TABLES, USER_CODE_PAGE and USER_STACK_PAGE.
def singleSpace : UserSpace where
  l0 := layout.userTables
  l1 := layout.userTables + granule
  l2 := layout.userTables + 2 * granule
  l3 := layout.userTables + 3 * granule
  code := layout.userCodePage
  stack := layout.userStackPage

-- UserTaskMem.
def spaceAt (mem : Nat) : UserSpace where
  l0 := mem
  l1 := mem + granule
  l2 := mem + 2 * granule
  l3 := mem + 3 * granule
  code := mem + 4 * granule
  stack := mem + 5 * granule

-- Any other slot is unreachable!().
def taskMem : Nat → Option Nat
  | 0 => some layout.taskMemA
  | 1 => some layout.taskMemB
  | _ => none

def buildUserSpaceWith (mem : Memory) (prog : Image) : Nat × Memory := layout.singleSpace.build mem prog

def buildTaskUserSpace (mem : Memory) (slot : Nat) (prog : Image) : Option (Nat × Memory) :=
  (layout.taskMem slot).map fun task => (spaceAt task).build mem prog

end Layout

end Mmu

end Opal
