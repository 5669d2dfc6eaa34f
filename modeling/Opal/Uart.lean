import Opal.Polled
import Opal.Mmu

set_option autoImplicit false

namespace Opal

-- What a UART holds: received bytes nobody has read, bytes that wait to be
-- sent, and what has gone out.
structure Lines where
  rx : List UInt8
  tx : List UInt8
  wire : List UInt8
  deriving DecidableEq, Repr

namespace Lines

def reset : Lines := ⟨[], [], []⟩

def shift (d : Lines) : Lines :=
  match d.tx with
  | [] => d
  | b :: rest => { d with tx := rest, wire := d.wire ++ [b] }

-- A byte that finds no room is lost, and so is one stored without room.
def arrive (depth : Nat) (d : Lines) (b : UInt8) : Lines :=
  if d.rx.length < depth then { d with rx := d.rx ++ [b] } else d

def send (depth : Nat) (d : Lines) (b : UInt8) : Lines :=
  if d.tx.length < depth then { d with tx := d.tx ++ [b] } else d

theorem shift_spec (d : Lines) :
    d.shift.wire ++ d.shift.tx = d.wire ++ d.tx ∧ d.shift.tx = d.tx.tail ∧ d.shift.rx = d.rx := by
  rcases d with ⟨rx, tx, wire⟩
  cases tx with
  | nil => exact ⟨rfl, rfl, rfl⟩
  | cons b rest => exact ⟨by simp [shift], rfl, rfl⟩

theorem arrive_spec (depth : Nat) (d : Lines) (b : UInt8) :
    (d.arrive depth b).rx = (if decide (d.rx.length < depth) then d.rx ++ [b] else d.rx) ∧
      (d.arrive depth b).tx = d.tx ∧ (d.arrive depth b).wire = d.wire := by
  by_cases room : d.rx.length < depth <;> simp [arrive, room]

theorem send_spec (depth : Nat) (d : Lines) (b : UInt8) (room : d.tx.length < depth) :
    (d.send depth b).tx = d.tx ++ [b] ∧ (d.send depth b).rx = d.rx ∧ (d.send depth b).wire = d.wire := by
  simp [send, room]

end Lines

-- The bytes that write_str passes to write_byte, the same in all drivers.
def writeStr (s : List UInt8) : List UInt8 := s.flatMap fun b => if b = 0x0A then [0x0D, b] else [b]

theorem write_str_append (a b : List UInt8) : writeStr (a ++ b) = writeStr a ++ writeStr b := List.flatMap_append

theorem write_str_newline : writeStr [0x0A] = [0x0D, 0x0A] := rfl

theorem write_str_plain (s : List UInt8) (plain : 0x0A ∉ s) : writeStr s = s := by
  induction s with
  | nil => rfl
  | cons b rest ih =>
      rw [List.mem_cons, not_or] at plain
      have tail := ih plain.2
      unfold writeStr at tail ⊢
      rw [List.flatMap_cons, tail, if_neg (Ne.symm plain.1)]
      rfl

-- The PL011 at base. Of the flag register the driver knows two bits, of what it
-- reads from the data register the low byte: the others may hold anything.
structure Pl011Chip where
  base : Nat
  depth : Nat
  flagWord : Lines → UInt32
  dataWord : Lines → UInt8 → UInt32
  deep : 0 < depth
  txff : ∀ d, flagWord d &&& (1 : UInt32) <<< 5 = 0 ↔ d.tx.length < depth
  rxfe : ∀ d, flagWord d &&& (1 : UInt32) <<< 4 = 0 ↔ d.rx ≠ []
  character : ∀ d b, (dataWord d b).toUInt8 = b

namespace Pl011Chip

def read32 (chip : Pl011Chip) (addr : Nat) (d : Lines) : UInt32 × Lines :=
  if addr = chip.base then
    match d.rx with
    | [] => (chip.dataWord d 0, d)
    | b :: rest => (chip.dataWord d b, { d with rx := rest })
  else if addr = chip.base + 0x18 then (chip.flagWord d, d)
  else (0, d)

def write32 (chip : Pl011Chip) (addr : Nat) (v : UInt32) (d : Lines) : Lines :=
  if addr = chip.base then d.send chip.depth v.toUInt8 else d

-- Flags of two bits and data without error bits.
def plain (base depth : Nat) (deep : 0 < depth) : Pl011Chip where
  base := base
  depth := depth
  flagWord d := (if d.tx.length < depth then (0 : UInt32) else 0x20) ||| (if d.rx = [] then (0x10 : UInt32) else 0)
  dataWord _ b := b.toUInt32
  deep := deep
  txff d := by by_cases full : d.tx.length < depth <;> by_cases none : d.rx = [] <;> simp [full, none] <;> decide
  rxfe d := by by_cases full : d.tx.length < depth <;> by_cases none : d.rx = [] <;> simp [full, none] <;> decide
  character _ b := by simp

end Pl011Chip

namespace Pl011

section
variable (base : Nat) (chip : Pl011Chip)

def dr : Nat := base

def fr : Nat := base + 0x18

def frTxff : UInt32 := (1 : UInt32) <<< 5

def frRxfe : UInt32 := (1 : UInt32) <<< 4

def flags (d : Lines) : UInt32 := (chip.read32 (fr base) d).1

-- write_byte's spin ends where this holds, and what it then does.
def writes (d : Lines) : Bool := flags base chip d &&& frTxff = 0

def write (d : Lines) (b : UInt8) : Lines := chip.write32 (dr base) b.toUInt32 d

-- try_read_byte, which read_byte repeats until it finds a byte.
def tryReadByte (d : Lines) : Option (UInt8 × Lines) :=
  if flags base chip d &&& frRxfe ≠ 0 then none
  else
    let (data, d) := chip.read32 (dr base) d
    some (data.toUInt8, d)

end

theorem flags_word (chip : Pl011Chip) (d : Lines) : flags chip.base chip d = chip.flagWord d := by
  simp [flags, fr, Pl011Chip.read32]

theorem writes_iff (chip : Pl011Chip) (d : Lines) : writes chip.base chip d = true ↔ d.tx.length < chip.depth := by
  rw [writes, flags_word, decide_eq_true_eq]
  exact chip.txff d

theorem write_sends (chip : Pl011Chip) (d : Lines) (b : UInt8) : write chip.base chip d b = d.send chip.depth b := by
  simp [write, dr, Pl011Chip.write32]

theorem try_read_none (chip : Pl011Chip) (d : Lines) : tryReadByte chip.base chip d = none ↔ d.rx = [] := by
  have empty := (chip.rxfe d).not
  rw [not_not] at empty
  unfold tryReadByte
  rw [flags_word]
  by_cases waits : chip.flagWord d &&& frRxfe = 0
  · rw [if_neg (not_not.mpr waits)]
    exact iff_of_false (by simp) fun none => (chip.rxfe d).mp waits none
  · rw [if_pos waits]
    exact iff_of_true rfl (empty.mp waits)

theorem try_read_some (chip : Pl011Chip) (d : Lines) (b : UInt8) (rest : List UInt8) (waits : d.rx = b :: rest) :
    tryReadByte chip.base chip d = some (b, { d with rx := rest }) := by
  have ready : chip.flagWord d &&& frRxfe = 0 := (chip.rxfe d).mpr (by simp [waits])
  unfold tryReadByte
  rw [flags_word, if_neg (not_not.mpr ready)]
  simp [dr, Pl011Chip.read32, waits, chip.character]

-- The driver at the chip's own address is a program's port to its lines.
def port (chip : Pl011Chip) : Polled.Port Lines UInt8 where
  inbox := Lines.rx
  outbox := Lines.tx
  wire := Lines.wire
  mayStore := writes chip.base chip
  mayLoad d := (tryReadByte chip.base chip d).isSome
  store := write chip.base chip
  load d := (tryReadByte chip.base chip d).getD (0, d)
  shift := Lines.shift
  arrive := Lines.arrive chip.depth
  takes d := d.rx.length < chip.depth
  empty_ready d empty := (writes_iff chip d).mpr (by simpa [empty] using chip.deep)
  load_ready d := by rw [Option.isSome_iff_ne_none, ne_eq, try_read_none]
  stored d b room := by
    rw [write_sends]
    exact d.send_spec chip.depth b ((writes_iff chip d).mp room)
  loaded d b rest waits := by simp [try_read_some chip d b rest waits]
  shifted := Lines.shift_spec
  arrived d b := d.arrive_spec chip.depth b
  shift_ready d room := by
    rw [writes_iff] at room ⊢
    rw [(d.shift_spec).2.1, List.length_tail]
    omega
  arrive_ready d b room := by
    rw [writes_iff] at room ⊢
    rwa [(d.arrive_spec chip.depth b).2.1]

end Pl011

-- The s5l UART at base. Its status says when the send buffer is empty.
structure S5lChip where
  base : Nat
  depth : Nat
  statusWord : Lines → UInt32
  deep : 0 < depth
  txEmpty : ∀ d, statusWord d &&& (1 : UInt32) <<< 1 ≠ 0 ↔ d.tx = []
  rxReady : ∀ d, statusWord d &&& (1 : UInt32) <<< 0 ≠ 0 ↔ d.rx ≠ []

namespace S5lChip

def read32 (chip : S5lChip) (addr : Nat) (d : Lines) : UInt32 :=
  if addr = chip.base + 0x10 then chip.statusWord d else 0

def read8 (chip : S5lChip) (addr : Nat) (d : Lines) : UInt8 × Lines :=
  if addr = chip.base + 0x24 then
    match d.rx with
    | [] => (0, d)
    | b :: rest => (b, { d with rx := rest })
  else (0, d)

def write8 (chip : S5lChip) (addr : Nat) (v : UInt8) (d : Lines) : Lines :=
  if addr = chip.base + 0x20 then d.send chip.depth v else d

-- A status of two bits.
def plain (base depth : Nat) (deep : 0 < depth) : S5lChip where
  base := base
  depth := depth
  statusWord d := (if d.tx = [] then (2 : UInt32) else 0) ||| (if d.rx = [] then (0 : UInt32) else 1)
  deep := deep
  txEmpty d := by by_cases sent : d.tx = [] <;> by_cases none : d.rx = [] <;> simp [sent, none] <;> decide
  rxReady d := by by_cases sent : d.tx = [] <;> by_cases none : d.rx = [] <;> simp [sent, none] <;> decide

end S5lChip

-- S5lUart has its base in its type and RuntimeS5lUart in a field; the offsets
-- and the methods are the same.
structure RuntimeS5lUart where
  base : Nat
  deriving DecidableEq, Repr

namespace RuntimeS5lUart

def utrstatOff : Nat := 0x10

def utxhOff : Nat := 0x20

def urxhOff : Nat := 0x24

def utrstatTxEmpty : UInt32 := (1 : UInt32) <<< 1

def utrstatRxReady : UInt32 := (1 : UInt32) <<< 0

section
variable (uart : RuntimeS5lUart) (chip : S5lChip)

def status (d : Lines) : UInt32 := chip.read32 (uart.base + utrstatOff) d

def writes (d : Lines) : Bool := uart.status chip d &&& utrstatTxEmpty ≠ 0

def write (d : Lines) (b : UInt8) : Lines := chip.write8 (uart.base + utxhOff) b d

def tryReadByte (d : Lines) : Option (UInt8 × Lines) :=
  if uart.status chip d &&& utrstatRxReady = 0 then none else some (chip.read8 (uart.base + urxhOff) d)

end

section
variable (chip : S5lChip)

theorem status_word (d : Lines) : status ⟨chip.base⟩ chip d = chip.statusWord d := by
  simp [status, utrstatOff, S5lChip.read32]

theorem writes_iff (d : Lines) : writes ⟨chip.base⟩ chip d = true ↔ d.tx = [] := by
  rw [writes, status_word, decide_eq_true_eq]
  exact chip.txEmpty d

theorem write_sends (d : Lines) (b : UInt8) : write ⟨chip.base⟩ chip d b = d.send chip.depth b := by
  simp [write, utxhOff, S5lChip.write8]

theorem try_read_none (d : Lines) : tryReadByte ⟨chip.base⟩ chip d = none ↔ d.rx = [] := by
  have empty := (chip.rxReady d).not
  rw [not_not, not_not] at empty
  unfold tryReadByte
  rw [status_word]
  by_cases waits : chip.statusWord d &&& utrstatRxReady = 0
  · rw [if_pos waits]
    exact iff_of_true rfl (empty.mp waits)
  · rw [if_neg waits]
    exact iff_of_false (by simp) fun none => waits (empty.mpr none)

theorem try_read_some (d : Lines) (b : UInt8) (rest : List UInt8) (waits : d.rx = b :: rest) :
    tryReadByte ⟨chip.base⟩ chip d = some (b, { d with rx := rest }) := by
  have ready : chip.statusWord d &&& utrstatRxReady ≠ 0 := (chip.rxReady d).mpr (by simp [waits])
  unfold tryReadByte
  rw [status_word, if_neg ready]
  simp [urxhOff, S5lChip.read8, waits]

def port : Polled.Port Lines UInt8 where
  inbox := Lines.rx
  outbox := Lines.tx
  wire := Lines.wire
  mayStore := writes ⟨chip.base⟩ chip
  mayLoad d := (tryReadByte ⟨chip.base⟩ chip d).isSome
  store := write ⟨chip.base⟩ chip
  load d := (tryReadByte ⟨chip.base⟩ chip d).getD (0, d)
  shift := Lines.shift
  arrive := Lines.arrive chip.depth
  takes d := d.rx.length < chip.depth
  empty_ready d empty := (writes_iff chip d).mpr empty
  load_ready d := by rw [Option.isSome_iff_ne_none, ne_eq, try_read_none]
  stored d b room := by
    have empty := (writes_iff chip d).mp room
    rw [write_sends]
    exact d.send_spec chip.depth b (by simpa [empty] using chip.deep)
  loaded d b rest waits := by simp [try_read_some chip d b rest waits]
  shifted := Lines.shift_spec
  arrived d b := d.arrive_spec chip.depth b
  shift_ready d room := by
    rw [writes_iff] at room ⊢
    rw [(d.shift_spec).2.1, room]
    rfl
  arrive_ready d b room := by
    rw [writes_iff] at room ⊢
    rwa [(d.arrive_spec chip.depth b).2.1]

end

end RuntimeS5lUart

end Opal
