import Opal.User

set_option autoImplicit false

namespace Opal

-- usize, u64 and descriptors are Nat, addresses physical unless they are
-- called va. What wraps in the source is reduced where it can.
namespace Mmu

def granule : Nat := 16 <<< 10

def ramBase : Nat := 0x40000000

def ramSize : Nat := 512 * 1024 * 1024

def uart0Base : Nat := 0x09000000

def gicdBase : Nat := 0x08000000

def giccBase : Nat := 0x08010000

def physToVirt (pa : Nat) : Nat := (kernelBase + pa) % 2 ^ 64

def l0i (pa : Nat) : Nat := pa >>> 47 &&& 0x1

def l1i (pa : Nat) : Nat := pa >>> 36 &&& 0x7FF

def l2i (pa : Nat) : Nat := pa >>> 25 &&& 0x7FF

def l3i (pa : Nat) : Nat := pa >>> 14 &&& 0x7FF

def vaL0i (va : Nat) : Nat := va >>> 47 &&& 0x1

def vaL1i (va : Nat) : Nat := va >>> 36 &&& 0x7FF

def vaL2i (va : Nat) : Nat := va >>> 25 &&& 0x7FF

def vaL3i (va : Nat) : Nat := va >>> 14 &&& 0x7FF

inductive Attr where
  | textRx
  | ro
  | rw
  | device
  | userRw
  | userRx
  | framebuffer
  deriving DecidableEq, Repr

def af : Nat := 1 <<< 10

def pxn : Nat := 1 <<< 53

def uxn : Nat := 1 <<< 54

def shInner : Nat := 0b11 <<< 8

def apRo : Nat := 0b10 <<< 6

def attrDevice : Nat := 1 <<< 2

def Attr.leafBits : Attr → Nat
  | .textRx => af ||| shInner ||| apRo ||| uxn
  | .ro => af ||| shInner ||| apRo ||| pxn ||| uxn
  | .rw => af ||| shInner ||| pxn ||| uxn
  | .device => af ||| attrDevice ||| pxn ||| uxn
  | .userRw => af ||| shInner ||| 1 <<< 6 ||| pxn ||| uxn
  | .userRx => af ||| shInner ||| apRo ||| 1 <<< 6 ||| pxn
  | .framebuffer => af ||| shInner ||| 0b10 <<< 2 ||| pxn ||| uxn

def tableDesc (pa : Nat) : Nat := pa ||| 0b11

def blockDesc (pa : Nat) (a : Attr) : Nat := pa ||| a.leafBits ||| 0b01

def pageDesc (pa : Nat) (a : Attr) : Nat := pa ||| a.leafBits ||| 0b11

-- The descriptors in memory: the word at each physical address.
abbrev Memory := Nat → Nat

def store (mem : Memory) (pa desc : Nat) : Memory := Function.update mem pa desc

def readTable (mem : Memory) (tablePa idx : Nat) : Nat := mem (tablePa + idx * 8)

def writeTable (mem : Memory) (tablePa idx desc : Nat) : Memory := store mem (tablePa + idx * 8) desc

-- Link-time physical addresses, as linker.ld lays the image out: the stub and
-- .text from 0x40200000, .rodata, then .data and .bss with the statics, the
-- guard, the stack. PageTable and the page statics are align(16384).
structure Layout where
  textEnd : Nat
  rodataEnd : Nat
  guardBottom : Nat
  stackBottom : Nat
  stackTop : Nat
  tables : Nat
  userTables : Nat
  userCodePage : Nat
  userStackPage : Nat
  taskMemA : Nat
  taskMemB : Nat
  text_above : 0x40200000 ≤ textEnd
  rodata_above : textEnd ≤ rodataEnd
  guard_above : rodataEnd ≤ guardBottom
  guard_size : stackBottom = guardBottom + granule
  stack_size : stackTop = stackBottom + 0x10000
  image_fits : stackTop ≤ 0x42000000
  text_aligned : textEnd &&& 0x3FFF = 0
  rodata_aligned : rodataEnd &&& 0x3FFF = 0
  guard_aligned : guardBottom &&& 0x3FFF = 0
  -- Each static with its length in granules: apart from the others, in .bss.
  aligned : ∀ s ∈ [tables, userTables, userCodePage, userStackPage, taskMemA, taskMemB], s % granule = 0
  in_bss : ∀ s ∈ [(tables, 14), (userTables, 4), (userCodePage, 1), (userStackPage, 1), (taskMemA, 6), (taskMemB, 6)],
    rodataEnd ≤ s.1 ∧ s.1 + s.2 * granule ≤ guardBottom
  apart : [(tables, 14), (userTables, 4), (userCodePage, 1), (userStackPage, 1), (taskMemA, 6), (taskMemB, 6)].Pairwise
    fun s t => s.1 + s.2 * granule ≤ t.1 ∨ t.1 + t.2 * granule ≤ s.1

namespace Layout

variable (layout : Layout)

-- The fields of TABLES, in order.
def l0 : Nat := layout.tables

def l1 : Nat := layout.tables + granule

def l2 : Nat := layout.tables + 2 * granule

def l3Kernel : Nat := layout.tables + 3 * granule

def l3Mmio : Nat := layout.tables + 4 * granule

def emptyRoot : Nat := layout.tables + 5 * granule

def runtime (idx : Nat) : Nat := layout.tables + (6 + idx) * granule

def tablesLen : Nat := 14 * granule

end Layout

-- Which leaf the builder writes for the page that the kernel's L3 table holds
-- for link-time address pa, and none for the guard.
def kernelPage (layout : Layout) (delta : Nat) (pa : Nat) : Option Nat :=
  -- The symbols are read where the image runs, and delta is taken off again.
  let symbol := fun link => (link + delta) % 2 ^ 64
  let back := fun actual => (actual + (2 ^ 64 - delta)) % 2 ^ 64
  let textEnd := back (symbol layout.textEnd)
  let rodataEnd := back (symbol layout.rodataEnd)
  let guardBottom := back (symbol layout.guardBottom)
  let stackBottom := back (symbol layout.stackBottom)
  let stackTop := back (symbol layout.stackTop)
  let textStart := ramBase + 0x200000
  let outPa := if pa ≥ textStart ∧ pa < stackTop then (pa + delta) % 2 ^ 64 else pa
  if pa < textStart then some (pageDesc outPa .ro)
  else if pa < textEnd then some (pageDesc outPa .textRx)
  else if pa < rodataEnd then some (pageDesc outPa .ro)
  else if pa < guardBottom then some (pageDesc outPa .rw)
  else if pa < stackBottom then none
  else some (pageDesc outPa .rw)

def writeLoop (start upto : Nat) (word : Nat → Option (Nat × Nat)) (mem : Memory) : Memory :=
  (List.range' start (upto - start)).foldl
    (fun mem i =>
      match word i with
      | none => mem
      | some (pa, desc) => store mem pa desc)
    mem

-- The root and the tables, or nothing where the CPU has no 16K granule: the
-- core parks. delta is load address minus link address.
def opalBuildTables (layout : Layout) (delta mmfr0 : Nat) (mem : Memory) : Option (Nat × Memory) :=
  if mmfr0 >>> 20 &&& 0xF = 0b0000 then none
  else
    let symbol := fun link => (link + delta) % 2 ^ 64
    let l3k := symbol layout.l3Kernel
    let mem := writeLoop 0 2048 (fun i => (kernelPage layout delta (ramBase + i <<< 14)).map fun d => (l3k + i * 8, d)) mem
    let l3m := symbol layout.l3Mmio
    let mem := store mem (l3m + l3i uart0Base * 8) (pageDesc uart0Base .device)
    let device := fun base i => some (l3m + l3i (base + i * granule) * 8, pageDesc (base + i * granule) .device)
    let mem := writeLoop 0 4 (device gicdBase) mem
    let mem := writeLoop 0 4 (device giccBase) mem
    let l2 := symbol layout.l2
    let mem := store mem (l2 + l2i uart0Base * 8) (tableDesc l3m)
    let mem := store mem (l2 + l2i ramBase * 8) (tableDesc l3k)
    let mem := writeLoop (l2i ramBase + 1) (l2i (ramBase + ramSize))
      (fun slot => some (l2 + slot * 8, blockDesc (slot <<< 25) .rw)) mem
    let mem := store mem (l2 + l2i (ramBase + ramSize) * 8) (blockDesc (ramBase + ramSize) .device)
    let l1 := symbol layout.l1
    let l0 := symbol layout.l0
    let mem := store mem (l1 + l1i ramBase * 8) (tableDesc l2)
    let mem := store mem (l0 + l0i ramBase * 8) (tableDesc l1)
    some (l0, mem)

structure State where
  mem : Memory
  runtimeIdx : Nat
  ttbr0 : Nat
  ttbr1 : Nat

def opalMmuEnable (root : Nat) (mem : Memory) : State := ⟨mem, 0, root, root⟩

def State.condemnLowHalf (layout : Layout) (s : State) : State := { s with ttbr0 := layout.emptyRoot }

inductive IoremapError where
  | misaligned
  | notKernelVa
  | blockInPath
  | outOfTables
  deriving DecidableEq, Repr

namespace State

variable (layout : Layout) (s : State)

def allocRuntimeTable : Option Nat × State :=
  let idx := s.runtimeIdx
  let s := { s with runtimeIdx := (idx + 1) % 2 ^ 64 }
  if idx ≥ 8 then (none, s) else (some (layout.runtime idx), s)

-- The arm of an invalid descriptor: a table from the pool is linked there.
def linkTable (tablePa idx : Nat) : Except IoremapError Nat × State :=
  match s.allocRuntimeTable layout with
  | (none, s) => (.error .outOfTables, s)
  | (some nextPa, s) => (.ok nextPa, { s with mem := writeTable s.mem tablePa idx (tableDesc nextPa) })

def ensureTable (tablePa idx : Nat) : Except IoremapError Nat × State :=
  let desc := readTable s.mem tablePa idx
  match desc &&& 0b11 with
  | 0b11 => (.ok (desc &&& 0x0000FFFFFFFFC000), s)
  | 0b01 => (.error .blockInPath, s)
  | _ => s.linkTable layout tablePa idx

-- ioremap_device and ioremap_framebuffer differ in the leaf alone.
def ioremap (attr : Attr) (va pa : Nat) : Except IoremapError Unit × State :=
  if va &&& (granule - 1) ≠ 0 ∨ pa &&& (granule - 1) ≠ 0 then (.error .misaligned, s)
  else if va >>> 48 ≠ 0xFFFF then (.error .notKernelVa, s)
  else
    let l0Pa := s.ttbr1
    let l0Desc := readTable s.mem l0Pa (vaL0i va)
    if l0Desc &&& 0b11 ≠ 0b11 then (.error .blockInPath, s)
    else
      let l1Pa := l0Desc &&& 0x0000FFFFFFFFC000
      match s.ensureTable layout l1Pa (vaL1i va) with
      | (.error e, s) => (.error e, s)
      | (.ok l2Pa, s) =>
          match s.ensureTable layout l2Pa (vaL2i va) with
          | (.error e, s) => (.error e, s)
          | (.ok l3Pa, s) => (.ok (), { s with mem := writeTable s.mem l3Pa (vaL3i va) (pageDesc pa attr) })

def ioremapDevice (va pa : Nat) : Except IoremapError Unit × State := s.ioremap layout .device va pa

def ioremapFramebuffer (va pa : Nat) : Except IoremapError Unit × State := s.ioremap layout .framebuffer va pa

end State

-- How a walk ends. A leaf comes with the address it leads to.
inductive Walk where
  | nonCanonical
  | outside (level tablePa : Nat)
  | fault (level desc : Nat)
  | leaf (softPa desc : Nat)
  | ended
  deriving DecidableEq, Repr

-- The rounds of walk's loop. known is the check of the table's address.
def walkLevels (known : Nat → Bool) (mem : Memory) (va : Nat) : Nat → List Nat → Nat → Walk
  | _, [], _ => .ended
  | level, i :: rest, tablePa =>
      if known tablePa = false then .outside level tablePa
      else
        let desc := mem (tablePa + i * 8)
        let paField := desc &&& 0x0000FFFFFFFFC000
        match desc &&& 0b11, level with
        | 0b01, 2 => .leaf (desc &&& 0x0000FFFFFE000000 ||| va &&& 0x1FFFFFF) desc
        | 0b11, 3 => .leaf (paField ||| va &&& 0x3FFF) desc
        | 0b11, _ => walkLevels known mem va (level + 1) rest paField
        | _, _ => .fault level desc

def indices (va : Nat) : List Nat := [va >>> 47 &&& 0x1, va >>> 36 &&& 0x7FF, va >>> 25 &&& 0x7FF, va >>> 14 &&& 0x7FF]

def State.walkWith (known : Nat → Bool) (s : State) (va : Nat) : Walk :=
  if va >>> 48 = 0xFFFF then walkLevels known s.mem va 0 (indices va) (s.ttbr1 &&& 0x0000FFFFFFFFFFFE)
  else if va >>> 48 = 0x0000 then walkLevels known s.mem va 0 (indices va) (s.ttbr0 &&& 0x0000FFFFFFFFFFFE)
  else .nonCanonical

def Layout.inTables (layout : Layout) (tablePa : Nat) : Bool :=
  ¬ (tablePa < layout.tables ∨ tablePa ≥ layout.tables + Layout.tablesLen)

def State.walk (layout : Layout) (s : State) (va : Nat) : Walk := s.walkWith layout.inTables va

-- With TCR_EL1.HA = 0 a leaf whose AF is clear faults on first touch.
def Walk.touched : Walk → Walk
  | .leaf softPa desc =>
      if desc &&& af = 0 then .fault (if desc &&& 0b11 = 0b01 then 2 else 3) desc else .leaf softPa desc
  | walk => walk

-- The table walker of the hardware takes any table address.
def State.hardwareWalk (s : State) (va : Nat) : Walk := (s.walkWith (fun _ => true) va).touched

def mairEl1Value : Nat := 0x00000000004400FF

inductive MemoryType where
  | device
  | nonCacheable
  | normal
  | other
  deriving DecidableEq, Repr

-- What a leaf grants: AttrIndx through MAIR_EL1, AP[2:1], PXN, UXN and AF.
structure Access where
  memory : MemoryType
  el1Write : Bool
  el1Execute : Bool
  el0Read : Bool
  el0Write : Bool
  el0Execute : Bool
  touchable : Bool
  deriving DecidableEq, Repr

def memoryType (attrIndx : Nat) : MemoryType :=
  match mairEl1Value >>> (8 * attrIndx) &&& 0xFF with
  | 0x00 => .device
  | 0x44 => .nonCacheable
  | 0xFF => .normal
  | _ => .other

def access (desc : Nat) : Access where
  memory := memoryType ((desc &&& 0b111 <<< 2) >>> 2)
  el1Write := desc &&& 0b10 <<< 6 = 0
  el1Execute := desc &&& 1 <<< 53 = 0
  el0Read := desc &&& 0b01 <<< 6 ≠ 0
  el0Write := desc &&& 0b11 <<< 6 = 0b01 <<< 6
  el0Execute := desc &&& 1 <<< 54 = 0
  touchable := desc &&& af ≠ 0

def Walk.translation : Walk → Option (Nat × Access)
  | .leaf softPa desc => some (softPa, access desc)
  | _ => none

end Mmu

end Opal
