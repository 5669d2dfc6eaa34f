import Opal.Reading
import Opal.User
import Mathlib.Data.List.Infix

set_option autoImplicit false

namespace Opal

open Reading

-- usize and u32 values are Nat, with every addition and subtraction checked as
-- the source leaves it. A str is its bytes.
namespace Fdt

def fdtBeginNode : Nat := 0x1

def fdtEndNode : Nat := 0x2

def fdtProp : Nat := 0x3

def fdtNop : Nat := 0x4

def fdtEnd : Nat := 0x9

def fdtMagic : Nat := 0xd00dfeed

def headerSize : Nat := 40

-- n & !3
def mask4 (n : Nat) : Nat := n / 4 * 4

-- u32::from_be and u64::from_be of the bytes in memory order.
def fromBe (bytes : List UInt8) : Nat := bytes.foldl (fun acc byte => 256 * acc + byte.toNat) 0

def continuation (byte : UInt8) : Bool := 0x80 ≤ byte && byte ≤ 0xBF

-- What core::str::from_utf8 accepts.
def utf8 : List UInt8 → Bool
  | [] => true
  | a :: rest =>
      if a < 0x80 then utf8 rest
      else
        match rest with
        | b :: rest =>
            if 0xC2 ≤ a && a ≤ 0xDF then continuation b && utf8 rest
            else
              match rest with
              | c :: rest =>
                  if a = 0xE0 then 0xA0 ≤ b && b ≤ 0xBF && continuation c && utf8 rest
                  else if a = 0xED then 0x80 ≤ b && b ≤ 0x9F && continuation c && utf8 rest
                  else if 0xE1 ≤ a && a ≤ 0xEF then continuation b && continuation c && utf8 rest
                  else
                    match rest with
                    | d :: rest =>
                        if a = 0xF0 then 0x90 ≤ b && b ≤ 0xBF && continuation c && continuation d && utf8 rest
                        else if a = 0xF4 then 0x80 ≤ b && b ≤ 0x8F && continuation c && continuation d && utf8 rest
                        else if 0xF1 ≤ a && a ≤ 0xF3 then
                          continuation b && continuation c && continuation d && utf8 rest
                        else false
                    | [] => false
              | [] => false
        | [] => false

def fromUtf8 (bytes : List UInt8) : Reading (List UInt8) := if utf8 bytes then return bytes else missing

structure Header where
  magic : Nat
  totalsize : Nat
  offDtStruct : Nat
  offDtStrings : Nat
  offMemRsvmap : Nat
  version : Nat
  lastCompVersion : Nat
  bootCpuidPhys : Nat
  sizeDtStrings : Nat
  sizeDtStruct : Nat
  deriving DecidableEq

structure ReserveEntry where
  address : Nat
  size : Nat
  deriving DecidableEq

def readBeU32 (base offset totalsize : Nat) : Reading Nat := do
  let stop ← checkedAdd offset 4
  if stop > totalsize then missing
  else
    let address ← add base offset
    let raw ← fetch address 4
    return fromBe raw

def readBeU64 (base offset totalsize : Nat) : Reading Nat := do
  let stop ← checkedAdd offset 8
  if stop > totalsize then missing
  else
    let address ← add base offset
    let raw ← fetch address 8
    return fromBe raw

-- while end < totalsize: where the scan for the NUL stops.
def scanRound (base totalsize stop : Nat) : Reading (Round Nat Nat) :=
  if stop < totalsize then do
    let address ← add base stop
    let byte ← load address 1
    if byte = [0] then return .done stop
    else
      let stop ← add stop 1
      return .again stop
  else return .done stop

def scanCstr (base totalsize : Nat) : Nat → Reading Nat := loop (scanRound base totalsize)

def readCstr (base offset totalsize : Nat) : Reading (List UInt8) :=
  if offset ≥ totalsize then missing
  else do
    let stop ← scanCstr base totalsize offset
    if stop ≥ totalsize then missing
    else
      let address ← add base offset
      let len ← sub stop offset
      let bytes ← load address len
      fromUtf8 bytes

structure Node where
  offset : Nat
  deriving DecidableEq

structure Fdtr where
  base : Nat
  header : Header
  deriving DecidableEq

def Fdtr.new (dtbPa : Nat) : Reading Fdtr := do
  let base ← add kernelBase dtbPa
  let magic ← readBeU32 base 0 headerSize
  if magic ≠ fdtMagic then missing
  else
    let totalsize ← readBeU32 base 4 headerSize
    let offDtStruct ← readBeU32 base 8 totalsize
    let offDtStrings ← readBeU32 base 12 totalsize
    let offMemRsvmap ← readBeU32 base 16 totalsize
    let version ← readBeU32 base 20 totalsize
    let lastCompVersion ← readBeU32 base 24 totalsize
    let bootCpuidPhys ← readBeU32 base 28 totalsize
    let sizeDtStrings ← readBeU32 base 32 totalsize
    let sizeDtStruct ← readBeU32 base 36 totalsize
    let structEnd ← checkedAdd offDtStruct sizeDtStruct
    let stringsEnd ← checkedAdd offDtStrings sizeDtStrings
    if structEnd > totalsize ∨ stringsEnd > totalsize then missing
    else if offDtStruct < headerSize then missing
    else
      return {
        base
        header := {
          magic, totalsize, offDtStruct, offDtStrings, offMemRsvmap, version, lastCompVersion, bootCpuidPhys,
          sizeDtStrings, sizeDtStruct } }

-- Where a walk over the children stands. depth counts the open nodes below the
-- child level.
structure NodeIter where
  offset : Nat
  depth : Nat
  deriving DecidableEq

namespace Fdtr

variable (fdt : Fdtr)

def structU32 (off : Nat) : Reading Nat := readBeU32 fdt.base off fdt.header.totalsize

def structU64 (off : Nat) : Reading Nat := readBeU64 fdt.base off fdt.header.totalsize

def structCstr (off : Nat) : Reading (List UInt8) := readCstr fdt.base off fdt.header.totalsize

def stringAt (nameoff : Nat) : Reading (List UInt8) := do
  let off ← checkedAdd fdt.header.offDtStrings nameoff
  let stringsEnd ← add fdt.header.offDtStrings fdt.header.sizeDtStrings
  if off ≥ stringsEnd then missing
  else readCstr fdt.base off stringsEnd

-- A slice of the blob is where it starts. Its bytes are read where it is used.
def structBytes (off len : Nat) : Reading Nat := do
  let stop ← checkedAdd off len
  if stop > fdt.header.totalsize ∨ off > fdt.header.totalsize then missing
  else add fdt.base off

def structEnd : Reading Nat := add fdt.header.offDtStruct fdt.header.sizeDtStruct

def root : Reading Node := do
  let token ← fdt.structU32 fdt.header.offDtStruct
  if token ≠ fdtBeginNode then missing
  else return { offset := fdt.header.offDtStruct }

def nodeNameRaw (node : Node) : Reading (List UInt8) := do
  let nameOff ← add node.offset 4
  fdt.structCstr nameOff

def fullName (node : Node) : Reading (List UInt8) := do
  let raw ← attempt (fdt.nodeNameRaw node)
  return raw.getD []

-- The padded length of a NUL-terminated string: (len + 1 + 3) & !3.
def paddedName (name : List UInt8) : Reading Nat := do
  let len ← add name.length 1
  let len ← add len 3
  return mask4 len

-- One round of a loop over the tokens from off. continue is .again, and every
-- return None is missing.
def propRound (name : List UInt8) (structEnd off : Nat) : Reading (Round Nat (List UInt8)) := do
  let offEnd ← checkedAdd off 4
  if offEnd > structEnd then missing
  else
    let token ← fdt.structU32 off
    let off ← checkedAdd off 4
    if token = fdtProp then
      let len ← fdt.structU32 off
      let nameoffAt ← checkedAdd off 4
      let nameoff ← fdt.structU32 nameoffAt
      let off ← checkedAdd off 8
      let pname ← fdt.stringAt nameoff
      let data ← fdt.structBytes off len
      if pname = name then
        let bytes ← load data len
        return .done bytes
      else
        let dataPadded ← checkedAdd len 3
        let off ← checkedAdd off (mask4 dataPadded)
        return .again off
    else if token = fdtNop then return .again off
    else missing

def prop (node : Node) (name : List UInt8) : Reading (List UInt8) := do
  let nameOff ← add node.offset 4
  let nodeName ← fdt.structCstr nameOff
  let namePadded ← paddedName nodeName
  let off ← add nameOff namePadded
  let structEnd ← fdt.structEnd
  loop (fdt.propRound name structEnd) off

-- "compatible"
def compatibleName : List UInt8 := [0x63, 0x6f, 0x6d, 0x70, 0x61, 0x74, 0x69, 0x62, 0x6c, 0x65]

def compatible (node : Node) : Reading (List UInt8) := do
  let found ← attempt (fdt.prop node compatibleName)
  match found with
  | none => return []
  | some data =>
      match data.findIdx? (· = 0) with
      | some stop =>
          let first ← slice data 0 stop
          return if utf8 first then first else []
      | none => return if utf8 data then data else []

def firstChildRound (structEnd off : Nat) : Reading (Round Nat Nat) := do
  let offEnd ← checkedAdd off 4
  if offEnd > structEnd then missing
  else
    let token ← fdt.structU32 off
    if token = fdtProp then
      let lenAt ← checkedAdd off 4
      let len ← fdt.structU32 lenAt
      let dataPadded ← checkedAdd len 3
      let off ← checkedAdd off 4
      let off ← checkedAdd off 8
      let off ← checkedAdd off (mask4 dataPadded)
      return .again off
    else if token = fdtNop then
      let off ← checkedAdd off 4
      return .again off
    else if token = fdtBeginNode then return .done off
    else missing

def firstChildOffset (node : Node) : Reading Nat := do
  let nameOff ← add node.offset 4
  let name ← fdt.structCstr nameOff
  let namePadded ← paddedName name
  let off ← checkedAdd nameOff namePadded
  let structEnd ← fdt.structEnd
  loop (fdt.firstChildRound structEnd) off

def children (node : Node) : Reading NodeIter := do
  let offset ← attempt (fdt.firstChildOffset node)
  return { offset := offset.getD 0, depth := 0 }

def nextRound (structEnd : Nat) (iter : NodeIter) : Reading (Round NodeIter (Node × NodeIter)) :=
  if iter.offset = 0 then missing
  else do
    let offEnd ← add iter.offset 4
    if offEnd > structEnd then missing
    else
      let token ← fdt.structU32 iter.offset
      let offset ← add iter.offset 4
      if token = fdtBeginNode then
        let name ← fdt.structCstr offset
        let namePadded ← paddedName name
        let offset ← checkedAdd offset namePadded
        if iter.depth = 0 then
          let start ← sub offset 4
          let start ← sub start namePadded
          return .done ({ offset := start }, { offset, depth := 1 })
        else
          let depth ← add iter.depth 1
          return .again { offset, depth }
      else if token = fdtEndNode then
        if iter.depth = 0 then missing
        else
          let depth ← sub iter.depth 1
          return .again { offset, depth }
      else if token = fdtProp then
        let len ← fdt.structU32 offset
        let dataPadded ← add len 3
        let skip ← add 8 (mask4 dataPadded)
        let offset ← add offset skip
        return .again { offset, depth := iter.depth }
      else if token = fdtNop then return .again { offset, depth := iter.depth }
      else missing

-- NodeIter::next. The iterator's state after its None is left out: every loop
-- over it ends there.
def next (iter : NodeIter) : Reading (Node × NodeIter) := do
  let structEnd ← fdt.structEnd
  loop (fdt.nextRound structEnd) iter

-- for child in iter: the body carries a state and may leave the loop.
def eachRound {σ β : Type} (body : Node → σ → Reading (Round σ β)) (finish : σ → β) (at_ : NodeIter × σ) :
    Reading (Round (NodeIter × σ) β) := do
  let found ← attempt (fdt.next at_.1)
  match found with
  | none => return .done (finish at_.2)
  | some (child, iter) =>
      let round ← body child at_.2
      match round with
      | .again state => return .again (iter, state)
      | .done b => return .done b

def forEach {σ β : Type} (body : Node → σ → Reading (Round σ β)) (finish : σ → β) (iter : NodeIter) (start : σ) :
    Reading β := loop (fdt.eachRound body finish) (iter, start)

def exhaust (iter : NodeIter) : Reading (List Node) :=
  fdt.forEach (fun child found => return .again (found ++ [child])) id iter []

-- &text[..stop] of a str, which must end on a character boundary.
def sliceStr (text : List UInt8) (stop_ : Nat) : Reading (List UInt8) :=
  if (text[stop_]?).any continuation then stop .bounds else slice text 0 stop_

-- '@' and '/'
def atSign : UInt8 := 0x40

def slash : UInt8 := 0x2F

def matchesComponent (full component : List UInt8) : Reading Bool :=
  if full = component then return true
  else if atSign ∈ component then return false
  else
    match full.findIdx? (· = atSign) with
    | none => return false
    | some atPos => do
        let bare ← sliceStr full atPos
        return bare = component

-- The search among one node's children that find makes for a component.
def findRound (component : List UInt8) (child : Node) (_ : Unit) : Reading (Round Unit (Option Node)) := do
  let full ← fdt.fullName child
  let hit ← matchesComponent full component
  if hit then return .done (some child) else return .again ()

def findChild (node : Node) (component : List UInt8) : Reading (Option Node) := do
  let iter ← fdt.children node
  fdt.forEach (fdt.findRound component) (fun _ => none) iter ()

def components (path : List UInt8) : List (List UInt8) := (path.splitOn slash).filter (· ≠ [])

def find (path : List UInt8) : Reading Node := do
  let root ← fdt.root
  (components path).foldlM (fun node component => do
    let found ← fdt.findChild node component
    match found with
    | none => missing
    | some child => return child) root

-- str::contains
def containsStr (text part : List UInt8) : Bool := decide (part <:+: text)

def searchRound (call : Node → Reading (Option Node)) (child : Node) (_ : Unit) : Reading (Round Unit (Option Node)) := do
  let found ← call child
  match found with
  | some hit => return .done (some hit)
  | none => return .again ()

def searchCall (substr : List UInt8) (call : Node → Reading (Option Node)) (node : Node) : Reading (Option Node) := do
  let text ← fdt.compatible node
  if containsStr text substr then return some node
  else
    let iter ← fdt.children node
    fdt.forEach (searchRound call) (fun _ => none) iter ()

def findByCompatibleIn (substr : List UInt8) : Node → Reading (Option Node) := recurse (fdt.searchCall substr)

def findByCompatibleBy (search : Node → Reading (Option Node)) : Reading Node := do
  let root ← fdt.root
  let found ← search root
  match found with
  | none => missing
  | some node => return node

def findByCompatible (substr : List UInt8) : Reading Node := fdt.findByCompatibleBy (fdt.findByCompatibleIn substr)

inductive Shown where
  | empty
  | strings (parts : List (List UInt8))
  | cells (words : List Nat)
  | raw (bytes : List UInt8)
  deriving DecidableEq

inductive Line where
  | node (indent : Nat) (label : List UInt8)
  | prop (indent : Nat) (name : List UInt8) (value : Shown)
  deriving DecidableEq

def spaces : Nat := 64

def indentStr (depth : Nat) : Reading Nat := do
  let wide ← mul depth 2
  return min wide spaces

def printable (byte : UInt8) : Bool := 0x20 ≤ byte && byte < 0x7f

-- The part of the value's string form, if it has one. A string that is all
-- printable holds no inner NUL.
def shownString (data : List UInt8) : Reading (Option Shown) :=
  if data.getLast? = some 0 then do
    let len ← sub data.length 1
    let text ← slice data 0 len
    if utf8 text && text ≠ [] && text.all printable then
      if (data.filter (· = 0)).length > 1 then
        return some (.strings ((text.splitOn 0).filter (· ≠ [])))
      else return some (.strings [text])
    else return none
  else return none

def cellsOf (data : List UInt8) : List Nat → Reading (List Nat)
  | [] => return []
  | i :: rest => do
      let start ← mul i 4
      let stop ← add start 4
      let cell ← slice data start stop
      let later ← cellsOf data rest
      return fromBe cell :: later

def printPropValue (data : List UInt8) : Reading Shown :=
  if data = [] then return .empty
  else do
    let text ← shownString data
    match text with
    | some shown => return shown
    | none =>
        if data.length % 4 = 0 then
          let words ← cellsOf data (List.range (data.length / 4))
          return .cells words
        else return .raw data

-- One property of the dump, or none where its loop breaks.
def dumpProp (off : Nat) : Reading (Option (List UInt8 × List UInt8 × Nat)) := do
  let token ← attempt (fdt.structU32 off)
  if token ≠ some fdtProp then return none
  else
    let off ← add off 4
    let len ← attempt (fdt.structU32 off)
    match len with
    | none => return none
    | some len =>
        let nameoffAt ← add off 4
        let nameoff ← attempt (fdt.structU32 nameoffAt)
        match nameoff with
        | none => return none
        | some nameoff =>
            let off ← add off 8
            let pname ← attempt (fdt.stringAt nameoff)
            let data ← attempt (fdt.structBytes off len)
            match data with
            | none => return none
            | some data =>
                let bytes ← load data len
                let dataPadded ← add len 3
                let off ← add off (mask4 dataPadded)
                -- "?"
                return some (pname.getD [0x3F], bytes, off)

def dumpRound (depth structEnd : Nat) (at_ : Nat × List Line) : Reading (Round (Nat × List Line) (List Line)) := do
  let offEnd ← add at_.1 4
  if offEnd ≤ structEnd then
    let found ← fdt.dumpProp at_.1
    match found with
    | none => return .done at_.2
    | some (pname, data, off) =>
        let deeper ← add depth 1
        let indent ← indentStr deeper
        let value ← printPropValue data
        return .again (off, at_.2 ++ [.prop indent pname value])
  else return .done at_.2

def dumpProps (depth structEnd off : Nat) : Reading (List Line) := loop (fdt.dumpRound depth structEnd) (off, [])

def dumpChild (call : Node × Nat → Reading (List Line)) (depth : Nat) (child : Node) (lines : List Line) :
    Reading (Round (List Line) (List Line)) := do
  let deeper ← add depth 1
  let more ← call (child, deeper)
  return .again (lines ++ more)

def dumpCall (call : Node × Nat → Reading (List Line)) (at_ : Node × Nat) : Reading (List Line) := do
  let indent ← indentStr at_.2
  let name ← fdt.fullName at_.1
  -- "/"
  let label := if name = [] then [slash] else name
  let nameOff ← add at_.1.offset 4
  let nodeName ← attempt (fdt.structCstr nameOff)
  let namePadded ← paddedName (nodeName.getD [])
  let off ← add nameOff namePadded
  let structEnd ← fdt.structEnd
  let props ← fdt.dumpProps at_.2 structEnd off
  let iter ← fdt.children at_.1
  let below ← fdt.forEach (dumpChild call at_.2) id iter []
  return .node indent label :: props ++ below

def dumpNode : Node × Nat → Reading (List Line) := recurse fdt.dumpCall

-- dump, by the dump of a node. None stands for the "(empty tree)" line.
def dumpBy (node : Node × Nat → Reading (List Line)) : Reading (Option (List Line)) := do
  let root ← attempt fdt.root
  match root with
  | none => return none
  | some root =>
      let lines ← node (root, 0)
      return some lines

def dump : Reading (Option (List Line)) := fdt.dumpBy fdt.dumpNode

-- ReserveIter::next and the offset it then stands at.
def nextReserve (offset : Nat) : Reading (ReserveEntry × Nat) := do
  let address ← fdt.structU64 offset
  let sizeAt ← add offset 8
  let size ← fdt.structU64 sizeAt
  if address = 0 ∧ size = 0 then missing
  else
    let offset ← add offset 16
    return ({ address, size }, offset)

def reserveRound (at_ : Nat × List ReserveEntry) : Reading (Round (Nat × List ReserveEntry) (List ReserveEntry)) := do
  let found ← attempt (fdt.nextReserve at_.1)
  match found with
  | none => return .done at_.2
  | some (entry, offset) => return .again (offset, at_.2 ++ [entry])

-- The reserve map to the iterator's first None.
def reserves : Reading (List ReserveEntry) := loop fdt.reserveRound (fdt.header.offMemRsvmap, [])

end Fdtr

end Fdt

end Opal
