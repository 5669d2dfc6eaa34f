import Opal.Uart
import Opal.Console

set_option autoImplicit false

namespace Opal

-- The monitor loop of kmain, which on_el0_return repeats, from the byte that
-- read_byte returns to the bytes it writes before it reads the next one.
namespace Monitor

def printable (b : UInt8) : Bool := 0x20 ≤ b && b ≤ 0x7E

def hexDigit (n : UInt8) : UInt8 := if n < 10 then 0x30 + n else 0x57 + n

-- print!("<{other:#04x}>")
def hexEcho (b : UInt8) : List UInt8 := ascii "<0x" ++ [hexDigit (b >>> 4), hexDigit (b &&& 0xF)] ++ ascii ">"

def prompt : List UInt8 := ascii "> "

-- What run_command does to the rest of the kernel and what it prints, which is
-- whole rows.
structure Commands (κ : Type) where
  run : κ → List UInt8 → κ × List UInt8
  rows : ∀ k line, (run k line).2 = [] ∨ ∃ text, (run k line).2 = text ++ [0x0A]

structure State (κ : Type) where
  buf : List UInt8
  len : Nat
  kernel : κ
  size : buf.length = 64
  fits : len ≤ 64

variable {κ : Type}

def State.line (s : State κ) : List UInt8 := s.buf.take s.len

def boot (k : κ) : State κ := ⟨List.replicate 64 0, 0, k, rfl, Nat.zero_le 64⟩

-- What kmain prints before the loop: its last println!() and the prompt.
def greeting (banner : List UInt8) : List UInt8 := writeStr (banner ++ [0x0A] ++ prompt)

def key (cmds : Commands κ) (s : State κ) (b : UInt8) : State κ × List UInt8 :=
  if b = 0x0D ∨ b = 0x0A then
    let (kernel, text) := cmds.run s.kernel s.line
    ({ s with kernel := kernel, len := 0, fits := Nat.zero_le 64 }, writeStr ([0x0A] ++ text ++ prompt))
  else if b = 0x08 ∨ b = 0x7F then
    if 0 < s.len then
      ({ s with len := s.len - 1, fits := Nat.le_trans (Nat.sub_le _ _) s.fits }, writeStr [0x08, 0x20, 0x08])
    else (s, [])
  else if printable b then
    if room : s.len < 64 then
      ({ s with buf := s.buf.set s.len b, len := s.len + 1, size := by simpa using s.size, fits := room }, [b])
    else (s, [])
  else (s, writeStr (hexEcho b))

-- What a session of typing comes to: the lines entered, the one being typed,
-- and what has been echoed since the prompt.
structure Typed where
  lines : List (List UInt8)
  line : List UInt8
  echo : List UInt8
  deriving DecidableEq, Repr

def Typed.key (t : Typed) (b : UInt8) : Typed :=
  if b = 0x0D ∨ b = 0x0A then ⟨t.lines ++ [t.line], [], []⟩
  else if b = 0x08 ∨ b = 0x7F then
    if t.line = [] then t else { t with line := t.line.dropLast, echo := t.echo.dropLast }
  else if printable b then
    if t.line.length < 64 then { t with line := t.line ++ [b], echo := t.echo ++ [b] } else t
  else { t with echo := t.echo ++ hexEcho b }

def typed (input : List UInt8) : Typed := input.foldl Typed.key ⟨[], [], []⟩

def Commands.after (cmds : Commands κ) (k : κ) (lines : List (List UInt8)) : κ :=
  lines.foldl (fun k line => (cmds.run k line).1) k

theorem typed_append (input : List UInt8) (b : UInt8) : typed (input ++ [b]) = (typed input).key b :=
  List.foldl_concat ..

-- The array with its fill count is the line, and the kernel is where the
-- entered lines have brought it.
structure Holds (cmds : Commands κ) (k : κ) (t : Typed) (s : State κ) : Prop where
  line : s.line = t.line
  kernel : s.kernel = cmds.after k t.lines

section
variable (cmds : Commands κ) (k : κ)

theorem line_length (s : State κ) : s.line.length = s.len := by
  rw [State.line, List.length_take, s.size]
  exact Nat.min_eq_left s.fits

theorem line_drop (s : State κ) : s.buf.take (s.len - 1) = s.line.dropLast := by
  rw [List.dropLast_eq_take, line_length, State.line, List.take_take, Nat.min_eq_left (Nat.sub_le _ _)]

theorem line_push (s : State κ) (b : UInt8) (room : s.len < 64) : (s.buf.set s.len b).take (s.len + 1) = s.line ++ [b] := by
  rw [List.take_add_one, List.take_set_of_le (Nat.le_refl _), List.getElem?_set_self (by rw [s.size]; exact room)]
  rfl

theorem key_holds (t : Typed) (s : State κ) (b : UInt8) (holds : Holds cmds k t s) : Holds cmds k (t.key b) (key cmds s b).1 := by
  have count := line_length s
  rw [holds.line] at count
  unfold key Typed.key
  by_cases enter : b = 0x0D ∨ b = 0x0A
  · rw [if_pos enter, if_pos enter]
    refine ⟨rfl, ?_⟩
    simp only [Commands.after, List.foldl_append, List.foldl_cons, List.foldl_nil]
    rw [holds.kernel, holds.line]
    rfl
  · rw [if_neg enter, if_neg enter]
    by_cases erase : b = 0x08 ∨ b = 0x7F
    · rw [if_pos erase, if_pos erase]
      by_cases none : t.line = []
      · rw [if_pos none, if_neg (by simp [← count, none])]
        exact holds
      · have some_ := List.length_pos_iff.mpr none
        rw [if_neg none, if_pos (by omega)]
        refine ⟨?_, holds.kernel⟩
        rw [← holds.line]
        exact line_drop s
    · rw [if_neg erase, if_neg erase]
      by_cases plain : printable b = true
      · rw [if_pos plain, if_pos plain]
        by_cases room : s.len < 64
        · rw [dif_pos room, if_pos (by omega)]
          refine ⟨?_, holds.kernel⟩
          rw [← holds.line]
          exact line_push s b room
        · rw [dif_neg room, if_neg (by omega)]
          exact holds
      · rw [if_neg plain, if_neg plain]
        exact ⟨holds.line, holds.kernel⟩

theorem answers_hold (input : List UInt8) : Holds cmds k (typed input) (Polled.answers (key cmds) (boot k) input).1 := by
  induction input using List.reverseRecOn with
  | nil => exact ⟨rfl, rfl⟩
  | append_singleton input b ih =>
      rw [typed_append, Polled.answers_append]
      exact key_holds cmds k _ _ b ih

end

-- Only whole lines of printable ASCII are entered, none longer than the array.
theorem typed_plain (input : List UInt8) :
    (∀ line ∈ (typed input).lines, line.length ≤ 64 ∧ ∀ b ∈ line, printable b = true) ∧
      (typed input).line.length ≤ 64 ∧ ∀ b ∈ (typed input).line, printable b = true := by
  induction input using List.reverseRecOn with
  | nil => simp [typed]
  | append_singleton input b ih =>
      obtain ⟨lines, short, plain⟩ := ih
      rw [typed_append, Typed.key]
      by_cases enter : b = 0x0D ∨ b = 0x0A
      · rw [if_pos enter]
        refine ⟨fun line entered => ?_, by simp, by simp⟩
        rcases List.mem_append.mp entered with old | new
        · exact lines line old
        · rw [List.mem_singleton.mp new]
          exact ⟨short, plain⟩
      · rw [if_neg enter]
        by_cases erase : b = 0x08 ∨ b = 0x7F
        · rw [if_pos erase]
          by_cases none : (typed input).line = []
          · rw [if_pos none]
            exact ⟨lines, short, plain⟩
          · rw [if_neg none]
            exact ⟨lines, by simp only [List.length_dropLast]; omega, fun c kept => plain c (List.mem_of_mem_dropLast kept)⟩
        · rw [if_neg erase]
          by_cases fits : printable b = true
          · rw [if_pos fits]
            by_cases room : (typed input).line.length < 64
            · rw [if_pos room]
              refine ⟨lines, by rwa [List.length_append], fun c kept => ?_⟩
              rcases List.mem_append.mp kept with old | new
              · exact plain c old
              · rwa [List.mem_singleton.mp new]
            · rw [if_neg room]
              exact ⟨lines, short, plain⟩
          · rw [if_neg fits]
            exact ⟨lines, short, plain⟩

-- The keys since the last Enter that neither end, erase nor fill a line.
def strays (input : List UInt8) : Nat :=
  input.foldl
    (fun n b =>
      if b = 0x0D ∨ b = 0x0A then 0
      else if b = 0x08 ∨ b = 0x7F then n
      else if printable b then n
      else n + 1) 0

theorem typed_echo (input : List UInt8) :
    (typed input).echo.length = (typed input).line.length + 6 * strays input ∧
      (strays input = 0 → (typed input).echo = (typed input).line) := by
  induction input using List.reverseRecOn with
  | nil => simp [typed, strays]
  | append_singleton input b ih =>
      obtain ⟨count, same⟩ := ih
      have after : strays (input ++ [b]) =
          if b = 0x0D ∨ b = 0x0A then 0
          else if b = 0x08 ∨ b = 0x7F then strays input
          else if printable b then strays input
          else strays input + 1 :=
        List.foldl_concat ..
      rw [typed_append, Typed.key, after]
      by_cases enter : b = 0x0D ∨ b = 0x0A
      · simp [enter]
      · rw [if_neg enter, if_neg enter]
        by_cases erase : b = 0x08 ∨ b = 0x7F
        · rw [if_pos erase, if_pos erase]
          by_cases none : (typed input).line = []
          · rw [if_pos none]
            exact ⟨count, same⟩
          · have some_ := List.length_pos_iff.mpr none
            rw [if_neg none]
            refine ⟨?_, fun clean => by rw [same clean]⟩
            simp only [List.length_dropLast]
            omega
        · rw [if_neg erase, if_neg erase]
          by_cases plain : printable b = true
          · rw [if_pos plain, if_pos plain]
            by_cases room : (typed input).line.length < 64
            · rw [if_pos room]
              refine ⟨?_, fun clean => by rw [same clean]⟩
              simp only [List.length_append, List.length_singleton]
              omega
            · rw [if_neg room]
              exact ⟨count, same⟩
          · rw [if_neg plain, if_neg plain]
            refine ⟨?_, fun no => absurd no (Nat.succ_ne_zero _)⟩
            have six : (hexEcho b).length = 6 := rfl
            simp only [List.length_append, six]
            omega

-- The row of a terminal that the cursor is on. No row is as long as the
-- terminal is wide.
structure Row where
  cells : Nat → UInt8
  col : Nat

namespace Row

def feed (r : Row) (b : UInt8) : Row :=
  if b = 0x0D then { r with col := 0 }
  else if b = 0x0A then { r with cells := fun _ => 0x20 }
  else if b = 0x08 then { r with col := r.col - 1 }
  else ⟨Function.update r.cells r.col b, r.col + 1⟩

def run (r : Row) (out : List UInt8) : Row := out.foldl feed r

def Shows (r : Row) (text : List UInt8) : Prop := r.col = text.length ∧ ∀ i, r.cells i = text.getD i 0x20

theorem run_append (r : Row) (a b : List UInt8) : r.run (a ++ b) = (r.run a).run b := List.foldl_append

theorem shows_unique (r : Row) (a b : List UInt8) (first : r.Shows a) (second : r.Shows b) : a.length = b.length :=
  first.1.symm.trans second.1

theorem feed_shows (r : Row) (text : List UInt8) (b : UInt8) (shows : r.Shows text) (home : b ≠ 0x0D) (newline : b ≠ 0x0A)
    (back : b ≠ 0x08) : (r.feed b).Shows (text ++ [b]) := by
  obtain ⟨col, cells⟩ := shows
  rw [feed, if_neg home, if_neg newline, if_neg back]
  refine ⟨by simp [col], fun i => ?_⟩
  by_cases here : i = text.length
  · simp [here, col]
  · by_cases before : i < text.length
    · simp [Function.update_of_ne (by omega : i ≠ r.col), cells, List.getD_eq_getElem?_getD, List.getElem?_append_left before]
    · have beyond : (text ++ [b]).length ≤ i := by
        simp only [List.length_append, List.length_singleton]
        omega
      simp [Function.update_of_ne (by omega : i ≠ r.col), cells, List.getD_eq_getElem?_getD,
        List.getElem?_eq_none (by omega : text.length ≤ i), List.getElem?_eq_none beyond]

theorem run_shows (r : Row) (text out : List UInt8) (shows : r.Shows text)
    (visible : ∀ b ∈ out, b ≠ 0x0D ∧ b ≠ 0x0A ∧ b ≠ 0x08) : (r.run out).Shows (text ++ out) := by
  induction out generalizing r text with
  | nil => simpa [run] using shows
  | cons b rest ih =>
      obtain ⟨home, newline, back⟩ := visible b List.mem_cons_self
      have next := ih (r.feed b) (text ++ [b]) (feed_shows r text b shows home newline back)
        fun c later => visible c (List.mem_cons_of_mem b later)
      simpa [run] using next

theorem erase_shows (r : Row) (text : List UInt8) (last : UInt8) (shows : r.Shows (text ++ [last])) :
    (r.run [0x08, 0x20, 0x08]).Shows text := by
  obtain ⟨col, cells⟩ := shows
  rw [List.length_append, List.length_singleton] at col
  have after : r.run [0x08, 0x20, 0x08] = ⟨Function.update r.cells text.length 0x20, text.length⟩ := by
    simp [run, feed, col]
  rw [after]
  refine ⟨rfl, fun i => ?_⟩
  by_cases here : i = text.length
  · simp [here]
  · dsimp only
    rw [Function.update_of_ne here, cells]
    by_cases before : i < text.length
    · simp [List.getD_eq_getElem?_getD, List.getElem?_append_left before]
    · have beyond : (text ++ [last]).length ≤ i := by
        simp only [List.length_append, List.length_singleton]
        omega
      simp [List.getD_eq_getElem?_getD, List.getElem?_eq_none (by omega : text.length ≤ i), List.getElem?_eq_none beyond]

theorem newline_shows (r : Row) : (r.run [0x0D, 0x0A]).Shows [] := ⟨rfl, fun _ => rfl⟩

end Row

theorem checked {α : Type} (l : List α) (p : α → Prop) [DecidablePred p] (all : (l.all fun a => decide (p a)) = true) :
    ∀ a ∈ l, p a := fun a member => of_decide_eq_true (List.all_eq_true.mp all a member)

theorem printable_visible (b : UInt8) (plain : printable b = true) : b ≠ 0x0D ∧ b ≠ 0x0A ∧ b ≠ 0x08 := by
  refine ⟨?_, ?_, ?_⟩ <;> (intro no; subst no; exact absurd plain (by decide))

theorem prompt_shows (r : Row) (out : List UInt8) : (r.run (writeStr (out ++ [0x0A] ++ prompt))).Shows prompt := by
  rw [write_str_append, write_str_append, write_str_newline, write_str_plain prompt (by decide), Row.run_append, Row.run_append]
  exact Row.run_shows _ [] prompt (Row.newline_shows _) (checked prompt _ (by decide))

theorem hex_digit_high (n : UInt8) (digit : n.toNat < 16) : 0x30 ≤ (hexDigit n).toNat := by
  unfold hexDigit
  by_cases low : n < 10
  · rw [if_pos low, UInt8.toNat_add]
    have : n.toNat < 10 := UInt8.lt_iff_toNat_lt.mp low
    simp only [UInt8.reduceToNat]
    omega
  · rw [if_neg low, UInt8.toNat_add]
    simp only [UInt8.reduceToNat]
    omega

theorem hex_echo_visible (b : UInt8) : ∀ c ∈ hexEcho b, c ≠ 0x0D ∧ c ≠ 0x0A ∧ c ≠ 0x08 := by
  have high : ∀ n : UInt8, n.toNat < 16 → hexDigit n ≠ 0x0D ∧ hexDigit n ≠ 0x0A ∧ hexDigit n ≠ 0x08 := by
    intro n digit
    have above := hex_digit_high n digit
    refine ⟨?_, ?_, ?_⟩ <;> (intro no; rw [no] at above; exact absurd above (by decide))
  have first : (b >>> 4).toNat < 16 := by
    have byte := b.toNat_lt
    simp only [UInt8.toNat_shiftRight, UInt8.reduceToNat, Nat.reduceMod, Nat.shiftRight_eq_div_pow, Nat.reducePow]
    omega
  have second : (b &&& 0xF).toNat < 16 := by
    rw [UInt8.toNat_and]
    exact Nat.lt_succ_of_le Nat.and_le_right
  intro c member
  simp only [hexEcho, List.mem_append, List.mem_cons, List.not_mem_nil, or_false] at member
  rcases member with (before | rfl | rfl) | after
  · exact checked (ascii "<0x") (fun c => c ≠ 0x0D ∧ c ≠ 0x0A ∧ c ≠ 0x08) (by decide) c before
  · exact high _ first
  · exact high _ second
  · exact checked (ascii ">") (fun c => c ≠ 0x0D ∧ c ≠ 0x0A ∧ c ≠ 0x08) (by decide) c after

section
variable (cmds : Commands κ) (k : κ)

theorem key_shows (r : Row) (t : Typed) (s : State κ) (b : UInt8) (holds : Holds cmds k t s)
    (echoed : t.line ≠ [] → t.echo ≠ []) (shows : r.Shows (prompt ++ t.echo)) :
    (r.run (key cmds s b).2).Shows (prompt ++ (t.key b).echo) := by
  have count := line_length s
  rw [holds.line] at count
  unfold key Typed.key
  by_cases enter : b = 0x0D ∨ b = 0x0A
  · rw [if_pos enter, if_pos enter, List.append_nil]
    dsimp only
    rcases cmds.rows s.kernel s.line with none | ⟨text, whole⟩
    · rw [none, List.append_nil]
      exact prompt_shows r []
    · rw [whole, ← List.append_assoc]
      exact prompt_shows r ([0x0A] ++ text)
  · rw [if_neg enter, if_neg enter]
    by_cases erase : b = 0x08 ∨ b = 0x7F
    · rw [if_pos erase, if_pos erase]
      by_cases none : t.line = []
      · rw [if_pos none, if_neg (by simp [← count, none])]
        exact shows
      · have some_ := List.length_pos_iff.mpr none
        rw [if_neg none, if_pos (by omega), write_str_plain _ (by decide)]
        refine Row.erase_shows r _ (t.echo.getLast (echoed none)) ?_
        rw [List.append_assoc, List.dropLast_append_getLast]
        exact shows
    · rw [if_neg erase, if_neg erase]
      by_cases plain : printable b = true
      · rw [if_pos plain, if_pos plain]
        by_cases room : s.len < 64
        · obtain ⟨home, newline, back⟩ := printable_visible b plain
          rw [dif_pos room, if_pos (by omega), ← List.append_assoc]
          exact Row.feed_shows r _ b shows home newline back
        · rw [dif_neg room, if_neg (by omega)]
          exact shows
      · have visible := hex_echo_visible b
        rw [if_neg plain, if_neg plain, write_str_plain _ fun no => (visible 0x0A no).2.1 rfl, ← List.append_assoc]
        exact Row.run_shows r _ _ shows visible

theorem answers_show (banner : List UInt8) (r : Row) (input : List UInt8) :
    (r.run (greeting banner ++ (Polled.answers (key cmds) (boot k) input).2)).Shows (prompt ++ (typed input).echo) := by
  induction input using List.reverseRecOn with
  | nil =>
      rw [Polled.answers, List.append_nil]
      exact prompt_shows r banner
  | append_singleton input b ih =>
      rw [typed_append, Polled.answers_append, ← List.append_assoc, Row.run_append]
      have echoed : (typed input).line ≠ [] → (typed input).echo ≠ [] := by
        intro some_ none
        have count := (typed_echo input).1
        rw [none, List.length_nil] at count
        exact some_ (List.length_eq_zero_iff.mp (by omega))
      have last : (Polled.answers (key cmds) (Polled.answers (key cmds) (boot k) input).1 [b]).2 =
          (key cmds (Polled.answers (key cmds) (boot k) input).1 b).2 := by
        simp [Polled.answers]
      rw [last]
      exact key_shows cmds k _ _ _ b (answers_hold cmds k input) echoed ih

-- What stands behind the prompt is the command that Enter would run, unless a
-- key that is neither text nor erasure was pressed since the last Enter.
theorem screen_shows_line_iff (banner : List UInt8) (r : Row) (input : List UInt8) :
    let reached := Polled.answers (key cmds) (boot k) input
    (r.run (greeting banner ++ reached.2)).Shows (prompt ++ reached.1.line) ↔ strays input = 0 := by
  have shows := answers_show cmds k banner r input
  have line := (answers_hold cmds k input).line
  obtain ⟨count, same⟩ := typed_echo input
  dsimp only
  rw [line]
  constructor
  · intro also
    have lengths := Row.shows_unique _ _ _ shows also
    simp only [List.length_append] at lengths
    omega
  · intro clean
    rw [← same clean]
    exact shows

end

-- The console that BOARD_KIND has picked when the loop begins.
inductive Serial where
  | virt (chip : Pl011Chip)
  | apple (chip : S5lChip)

def Serial.port : Serial → Polled.Port Lines UInt8
  | .virt chip => Pl011.port chip
  | .apple chip => RuntimeS5lUart.port chip

section
variable (serial : Serial) (cmds : Commands κ) (k : κ) (banner : List UInt8)

theorem port_queues (d : Lines) :
    serial.port.inbox d = d.rx ∧ serial.port.outbox d = d.tx ∧ serial.port.wire d = d.wire := by
  cases serial <;> exact ⟨rfl, rfl, rfl⟩

def atWork : Polled.Link (State κ) Lines UInt8 := Polled.Link.boot serial.port (boot k) (greeting banner) Lines.reset

theorem at_work_faithful :
    (atWork serial k banner).Faithful (key cmds) serial.port (boot k) (greeting banner) := by
  obtain ⟨_, idle, fresh⟩ := port_queues serial Lines.reset
  exact Polled.boot_faithful (key cmds) serial.port Lines.reset fresh idle

-- However the CPU, the UART and the typist take turns: what was received is
-- what the loop has read and what waits, the commands run are the lines entered
-- in what it has read, and the wire, the queue and what is still to be written
-- are what it says to that.
theorem session_on_the_wire (events : List (Polled.Event UInt8)) :
    let s := Run.exec (Polled.Link.next (key cmds) serial.port) (atWork serial k banner) events
    s.taken ++ s.device.rx = s.arrived ∧
      s.state.line = (typed s.taken).line ∧
      s.state.kernel = cmds.after k (typed s.taken).lines ∧
      (∀ line ∈ (typed s.taken).lines, line.length ≤ 64 ∧ ∀ b ∈ line, printable b = true) ∧
      s.device.wire ++ s.device.tx ++ s.output = greeting banner ++ (Polled.answers (key cmds) (boot k) s.taken).2 := by
  have kept := Polled.run_faithful (key cmds) serial.port events (at_work_faithful serial cmds k banner)
  dsimp only
  generalize Run.exec (Polled.Link.next (key cmds) serial.port) (atWork serial k banner) events = s at kept ⊢
  obtain ⟨inbox, outbox, wire⟩ := port_queues serial s.device
  have holds := answers_hold cmds k s.taken
  refine ⟨?_, ?_, ?_, (typed_plain s.taken).1, ?_⟩
  · rw [← inbox]
    exact kept.input
  · rw [kept.state]
    exact holds.line
  · rw [kept.state]
    exact holds.kernel
  · rw [← outbox, ← wire]
    exact kept.output

-- If the CPU and the UART both get their turn again and again, every byte that
-- was received is read some time, and all that there is to say to it is sent.
theorem session_answered (events : Nat → Polled.Event UInt8) (fair : Polled.Fair events) (n : Nat) :
    let states := Polled.trace (key cmds) serial.port (atWork serial k banner) events
    ∃ m, n ≤ m ∧ (states n).arrived <+: (states m).taken ∧
      greeting banner ++ (Polled.answers (key cmds) (boot k) (states n).arrived).2 <+: (states m).device.wire := by
  obtain ⟨m, later, read, sent⟩ :=
    Polled.eventually_answered (key cmds) serial.port fair (at_work_faithful serial cmds k banner) n
  refine ⟨m, later, read, ?_⟩
  rw [← (port_queues serial _).2.2]
  exact sent

end

def ledger : Commands (List (List UInt8)) where
  run k line := (k ++ [line], [])
  rows _ _ := .inl rfl

def alternating (b : UInt8) (n : Nat) : Polled.Event UInt8 :=
  if n = 0 then .arrive b else if n % 2 = 0 then .cpu else .shift

theorem alternating_fair (b : UInt8) : Polled.Fair (alternating b) := by
  refine ⟨fun n => ⟨2 * n + 2, by omega, ?_⟩, fun n => ⟨2 * n + 1, by omega, ?_⟩⟩
  · rw [alternating, if_neg (by omega), if_pos (by omega)]
  · rw [alternating, if_neg (by omega), if_neg (by omega)]

theorem session_answered_enter :
    ∃ m, 1 ≤ m ∧
      [0x0D] <+: (Polled.trace (key ledger) (Pl011.port (.plain 0 1 (by decide)))
        (atWork (.virt (.plain 0 1 (by decide))) [] []) (alternating 0x0D) m).taken := by
  obtain ⟨m, later, read, _⟩ :=
    session_answered (.virt (.plain 0 1 (by decide))) ledger [] [] (alternating 0x0D) (alternating_fair 0x0D) 1
  exact ⟨m, later, read⟩

end Monitor

end Opal
