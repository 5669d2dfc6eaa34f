import Opal.Aic
import Opal.BootMapping
import Opal.Framebuffer
import Opal.Robust

set_option autoImplicit false

namespace Opal

open Reading

namespace Fdt

namespace Fdtr

variable (fdt : Fdtr)

def propU32 (node : Node) (name : List UInt8) : Reading Nat := do
  let data ← fdt.prop node name
  if data.length < 4 then missing
  else
    let buf ← slice data 0 4
    return fromBe buf

end Fdtr

structure CellIter where
  data : List UInt8
  pos : Nat

def CellIter.next (cells : CellIter) : Reading (Nat × CellIter) := do
  let stop ← add cells.pos 4
  if stop > cells.data.length then missing
  else
    let stop ← add cells.pos 4
    let buf ← slice cells.data cells.pos stop
    let pos ← add cells.pos 4
    return (fromBe buf, { cells with pos })

def Fdtr.propCells (fdt : Fdtr) (node : Node) (name : List UInt8) : Reading CellIter := do
  let data ← attempt (fdt.prop node name)
  return { data := data.getD [], pos := 0 }

end Fdt

open Fdt

namespace Apple

-- S5L_UART_BASE, AIC, and FB_VA with the geometry.
structure Published where
  uartBase : Nat
  aic : Nat
  fb : Fb.Geometry
  deriving DecidableEq, Repr

structure Board where
  published : Published
  mmu : Mmu.State

-- "reg", "width", "height" and "stride"
def regName : List UInt8 := [0x72, 0x65, 0x67]

def widthName : List UInt8 := [0x77, 0x69, 0x64, 0x74, 0x68]

def heightName : List UInt8 := [0x68, 0x65, 0x69, 0x67, 0x68, 0x74]

def strideName : List UInt8 := [0x73, 0x74, 0x72, 0x69, 0x64, 0x65]

-- "apple,s5l-uart", "apple,aic" and "simple-framebuffer"
def uartCompatible : List UInt8 := [0x61, 0x70, 0x70, 0x6c, 0x65, 0x2c, 0x73, 0x35, 0x6c, 0x2d, 0x75, 0x61, 0x72, 0x74]

def aicCompatible : List UInt8 := [0x61, 0x70, 0x70, 0x6c, 0x65, 0x2c, 0x61, 0x69, 0x63]

def fbCompatible : List UInt8 :=
  [0x73, 0x69, 0x6d, 0x70, 0x6c, 0x65, 0x2d, 0x66, 0x72, 0x61, 0x6d, 0x65, 0x62, 0x75, 0x66, 0x66, 0x65, 0x72]

-- cells.next().unwrap_or(0)
def nextCell (cells : CellIter) : Reading (Nat × CellIter) := do
  let found ← attempt cells.next
  return found.getD (0, cells)

-- The first two cells of reg as a base. All three devices read it so.
def regBase (fdt : Fdtr) (node : Node) : Reading Nat := do
  let cells ← fdt.propCells node regName
  let baseHi ← nextCell cells
  let baseLo ← nextCell baseHi.2
  return baseHi.1 <<< 32 ||| baseLo.1

def physToVirt (pa : Nat) : Reading Nat := add kernelBase pa

variable (layout : Mmu.Layout)

-- A base is mapped at its alias, the device brought up there and the alias
-- published. The devices differ in the attribute, the rest and the place.
def mapBase (attr : Mmu.Attr) (bringUp : Nat → Reading Unit) (publish : Nat → Published → Published) (pa : Nat)
    (board : Board) : Reading (Bool × Board) := do
  let va ← physToVirt pa
  match board.mmu.ioremap layout attr va pa with
  | (.ok _, mmu) => do
      bringUp va
      return (true, { published := publish va board.published, mmu })
  | (.error _, mmu) => return (false, { board with mmu })

def discoverUart (fdt : Fdtr) (board : Board) : Reading Board := do
  let found ← attempt (fdt.findByCompatible uartCompatible)
  match found with
  | none => return board
  | some node =>
      let pa ← regBase fdt node
      let done ← mapBase layout .device (fun _ => return ()) (fun va p => { p with uartBase := va }) pa board
      return done.2

-- Aic::init: the additions of read32 and write32 to the base. info is what
-- AIC_INFO reads.
def initAic (info va : Nat) : Reading Unit := do
  let _ ← add va Aic.aicInfo
  if ∀ store ∈ ((Aic.new va).init info).2, store.addr < wordEnd then return () else stop .overflow

def discoverAic (info : Nat) (fdt : Fdtr) (board : Board) : Reading Board := do
  let found ← attempt (fdt.findByCompatible aicCompatible)
  match found with
  | none => return board
  | some node =>
      let pa ← regBase fdt node
      let done ← mapBase layout .device (initAic info) (fun va p => { p with aic := va }) pa board
      return done.2

-- prop_u32(..).unwrap_or(0)
def geometryOf (fdt : Fdtr) (node : Node) (name : List UInt8) : Reading Nat := do
  let found ← attempt (fdt.propU32 node name)
  return found.getD 0

def initFromFdt (fdt : Fdtr) (board : Board) : Reading (Bool × Board) := do
  let found ← attempt (fdt.findByCompatible fbCompatible)
  match found with
  | none => return (false, board)
  | some node =>
      let width ← geometryOf fdt node widthName
      let height ← geometryOf fdt node heightName
      let stride ← geometryOf fdt node strideName
      if width = 0 ∨ height = 0 ∨ stride = 0 then return (false, board)
      else
        let pa ← regBase fdt node
        if pa = 0 then return (false, board)
        else
          mapBase layout .framebuffer (fun _ => return ()) (fun va p => { p with fb := ⟨va, width, height, stride⟩ }) pa board

def init (info : Nat) (fdt : Option Fdtr) (board : Board) : Reading Board :=
  match fdt with
  | none => return board
  | some fdt => do
      let board ← discoverUart layout fdt board
      let board ← discoverAic layout info fdt board
      let done ← initFromFdt layout fdt board
      return done.2

end Apple

end Opal
