import Opal.Monitor
import Opal.Fdt
import Mathlib.Data.List.TakeWhile
import Mathlib.Data.Nat.Digits.Lemmas

set_option autoImplicit false

namespace Opal

-- run_command up to the arm it takes. A line is printable ASCII, so a byte is a
-- character.
namespace CommandLine

-- char::is_whitespace on ASCII
def blank (b : UInt8) : Bool := b = 0x20 || 0x09 ≤ b && b ≤ 0x0D

def trim (s : List UInt8) : List UInt8 := ((s.dropWhile blank).reverse.dropWhile blank).reverse

def splitOnce (s : List UInt8) : Option (List UInt8 × List UInt8) :=
  match s.span fun b => b ≠ 0x20 with
  | (_, []) => none
  | (before, _ :: after) => some (before, after)

-- char::to_digit
def toDigit (radix : Nat) (c : UInt8) : Option Nat :=
  let d :=
    if 0x30 ≤ c ∧ c ≤ 0x39 then c.toNat - 0x30
    else if 0x61 ≤ c ∧ c ≤ 0x7A then c.toNat - 0x61 + 10
    else if 0x41 ≤ c ∧ c ≤ 0x5A then c.toNat - 0x41 + 10
    else radix
  if d < radix then some d else none

-- checked_mul, then checked_add
def readDigits (radix : Nat) : List UInt8 → Nat → Option Nat
  | [], acc => some acc
  | c :: rest, acc =>
      match toDigit radix c with
      | none => none
      | some d =>
          if acc * radix < 2 ^ 64 then
            if acc * radix + d < 2 ^ 64 then readDigits radix rest (acc * radix + d) else none
          else none

-- u64::from_str_radix(s, radix).ok(), and for radix 10 s.parse().ok()
def fromStrRadix (radix : Nat) : List UInt8 → Option Nat
  | [] => none
  | c :: rest =>
      if c = 0x2B then if rest = [] then none else readDigits radix rest 0
      else readDigits radix (c :: rest) 0

def stripPrefix (pre s : List UInt8) : Option (List UInt8) :=
  if pre.isPrefixOf s then some (s.drop pre.length) else none

def parseHex (s : List UInt8) : Option Nat :=
  fromStrRadix 16 (((stripPrefix (ascii "0x") s).or (stripPrefix (ascii "0X") s)).getD s)

-- What a line makes the monitor do.
inductive Order where
  | nothing
  | help
  | brk
  | svc (n : Nat)
  | svcUsage
  | unaligned
  | translate (va : Nat)
  | translateUsage
  | walk (va : Nat)
  | walkUsage
  | mapdev (pa : Nat)
  | mapdevUsage
  | guard
  | wx
  | noexec
  | low
  | abort
  | tick
  | ticks
  | ticktest
  | dtb
  | tree
  | fdtcons
  | el0
  | el0fault
  | tasks
  | spawn2
  | preempt
  | ipc
  | blkipc
  | sendblk
  | faultkill
  | sleep
  | wait
  | unknown (other : List UInt8)
  deriving DecidableEq, Repr

-- The arms of the match on cmd, in order.
def arms : List (String × (List UInt8 → Order)) :=
  [ ("", fun _ => .nothing),
    ("help", fun _ => .help),
    ("brk", fun _ => .brk),
    ("svc", fun arg => ((fromStrRadix 10 arg).map .svc).getD .svcUsage),
    ("unaligned", fun _ => .unaligned),
    ("translate", fun arg => ((parseHex arg).map .translate).getD .translateUsage),
    ("walk", fun arg => ((parseHex arg).map .walk).getD .walkUsage),
    ("mapdev", fun arg => ((parseHex arg).map .mapdev).getD .mapdevUsage),
    ("guard", fun _ => .guard),
    ("wx", fun _ => .wx),
    ("noexec", fun _ => .noexec),
    ("low", fun _ => .low),
    ("abort", fun _ => .abort),
    ("tick", fun _ => .tick),
    ("ticks", fun _ => .ticks),
    ("ticktest", fun _ => .ticktest),
    ("dtb", fun _ => .dtb),
    ("tree", fun _ => .tree),
    ("fdtcons", fun _ => .fdtcons),
    ("el0", fun _ => .el0),
    ("el0fault", fun _ => .el0fault),
    ("tasks", fun _ => .tasks),
    ("spawn2", fun _ => .spawn2),
    ("preempt", fun _ => .preempt),
    ("ipc", fun _ => .ipc),
    ("blkipc", fun _ => .blkipc),
    ("sendblk", fun _ => .sendblk),
    ("faultkill", fun _ => .faultkill),
    ("sleep", fun _ => .sleep),
    ("wait", fun _ => .wait) ]

def dispatch (cmd arg : List UInt8) : Order :=
  match arms.find? fun arm => ascii arm.1 = cmd with
  | some arm => arm.2 arg
  | none => .unknown cmd

def order (line : List UInt8) : Order :=
  let line := trim (if Fdt.utf8 line then line else [])
  match splitOnce line with
  | some (cmd, arg) => dispatch cmd (trim arg)
  | none => dispatch line []

-- {n:x}
def lowerHex (n : Nat) : List UInt8 :=
  if n = 0 then [0x30] else (Nat.digits 16 n).reverse.map fun d => Monitor.hexDigit d.toUInt8

-- {n:#x}
def alternateHex (n : Nat) : List UInt8 := ascii "0x" ++ lowerHex n

section
variable (radix : Nat)

-- The overflow checks on the way refuse a numeral exactly when its value is too
-- large in the end.
theorem read_digits_iff (some_ : 0 < radix) (ds : List UInt8) (acc n : Nat) (small : acc < 2 ^ 64) :
    readDigits radix ds acc = some n ↔
      n < 2 ^ 64 ∧ ∃ vs, ds.mapM (toDigit radix) = some vs ∧ n = acc * radix ^ vs.length + Nat.ofDigits radix vs.reverse := by
  induction ds generalizing acc with
  | nil =>
      simp only [readDigits, List.mapM_nil, Option.pure_def, Option.some.injEq]
      constructor
      · rintro rfl
        exact ⟨small, [], rfl, by simp⟩
      · rintro ⟨_, vs, rfl, value⟩
        simpa using value.symm
  | cons c rest ih =>
      rw [readDigits, List.mapM_cons]
      cases digit : toDigit radix c with
      | none => simp
      | some d =>
          simp only [Option.bind_eq_bind, Option.bind_some, Option.pure_def]
          have value (vs : List Nat) : acc * radix ^ (d :: vs).length + Nat.ofDigits radix (d :: vs).reverse =
              (acc * radix + d) * radix ^ vs.length + Nat.ofDigits radix vs.reverse := by
            rw [List.reverse_cons, Nat.ofDigits_append, Nat.ofDigits_singleton, List.length_reverse, List.length_cons, pow_succ]
            ring
          have unfolded : (∃ vs, (rest.mapM (toDigit radix)).bind (fun vs => some (d :: vs)) = some vs ∧
                n = acc * radix ^ vs.length + Nat.ofDigits radix vs.reverse) ↔
              ∃ vs, rest.mapM (toDigit radix) = some vs ∧
                n = (acc * radix + d) * radix ^ vs.length + Nat.ofDigits radix vs.reverse := by
            constructor
            · rintro ⟨vs, read, is⟩
              obtain ⟨tail, found, whole⟩ := Option.bind_eq_some_iff.mp read
              obtain rfl := Option.some.inj whole
              exact ⟨tail, found, is.trans (value tail)⟩
            · rintro ⟨tail, found, is⟩
              exact ⟨d :: tail, by rw [found]; rfl, is.trans (value tail).symm⟩
          rw [unfolded]
          by_cases fits : acc * radix + d < 2 ^ 64
          · rw [if_pos (by omega), if_pos fits]
            exact ih (acc * radix + d) fits
          · have refused : (if acc * radix < 2 ^ 64 then
                if acc * radix + d < 2 ^ 64 then readDigits radix rest (acc * radix + d) else none else none) = none := by
              rw [if_neg fits]
              exact ite_self none
            rw [refused]
            refine iff_of_false (by simp) ?_
            rintro ⟨low, vs, _, is⟩
            have grows := Nat.le_mul_of_pos_right (acc * radix + d) (Nat.pow_pos (n := vs.length) some_)
            omega

-- The value of a string of digits, most significant first.
def value (ds : List UInt8) : Option Nat := (ds.mapM (toDigit radix)).map fun vs => Nat.ofDigits radix vs.reverse

theorem value_iff (ds : List UInt8) (n : Nat) :
    value radix ds = some n ↔ ∃ vs, ds.mapM (toDigit radix) = some vs ∧ n = Nat.ofDigits radix vs.reverse := by
  rw [value, Option.map_eq_some_iff]
  simp only [eq_comm]

theorem read_digits_value (some_ : 0 < radix) (ds : List UInt8) (n : Nat) :
    readDigits radix ds 0 = some n ↔ n < 2 ^ 64 ∧ value radix ds = some n := by
  rw [read_digits_iff radix some_ ds 0 n (by decide), value_iff]
  simp only [Nat.zero_mul, Nat.zero_add]

-- A sign is no digit, whatever the radix of the digits.
theorem from_str_radix_iff (some_ : 0 < radix) (s : List UInt8) (n : Nat) :
    fromStrRadix radix s = some n ↔
      n < 2 ^ 64 ∧ ∃ sign ∈ [[], [0x2B]], ∃ ds, ds ≠ [] ∧ s = sign ++ ds ∧ value radix ds = some n := by
  have no_sign : ∀ ds : List UInt8, value radix (0x2B :: ds) = none := by
    intro ds
    have none_ : toDigit radix 0x2B = none := by simp [toDigit]
    simp [value, List.mapM_cons, none_]
  cases s with
  | nil => simp [fromStrRadix]
  | cons c rest =>
      rw [fromStrRadix]
      by_cases plus : c = 0x2B
      · subst plus
        rw [if_pos rfl]
        by_cases bare : rest = []
        · rw [if_pos bare]
          refine iff_of_false (by simp) ?_
          rintro ⟨_, sign, among, ds, digits, is, value⟩
          rcases List.mem_cons.mp among with rfl | among
          · rw [List.nil_append] at is
            rw [← is, no_sign] at value
            cases value
          · rw [List.mem_singleton.mp among, bare, List.singleton_append, List.cons.injEq] at is
            exact digits is.2.symm
        · rw [if_neg bare, read_digits_value radix some_]
          refine and_congr_right fun _ => ⟨fun value => ⟨[0x2B], by simp, rest, bare, rfl, value⟩, ?_⟩
          rintro ⟨sign, among, ds, _, is, value⟩
          rcases List.mem_cons.mp among with rfl | among
          · rw [List.nil_append] at is
            rw [← is, no_sign] at value
            cases value
          · rw [List.mem_singleton.mp among, List.singleton_append, List.cons.injEq] at is
            rwa [is.2]
      · rw [if_neg plus, read_digits_value radix some_]
        refine and_congr_right fun _ => ⟨fun value => ⟨[], by simp, c :: rest, by simp, rfl, value⟩, ?_⟩
        rintro ⟨sign, among, ds, _, is, value⟩
        rcases List.mem_cons.mp among with rfl | among
        · rwa [is]
        · rw [List.mem_singleton.mp among, List.singleton_append, List.cons.injEq] at is
          exact absurd is.1 plus

end

theorem strip_prefix_append (pre s : List UInt8) : stripPrefix pre (pre ++ s) = some s := by
  simp [stripPrefix]

theorem strip_prefix_some (pre s rest : List UInt8) (stripped : stripPrefix pre s = some rest) : s = pre ++ rest := by
  unfold stripPrefix at stripped
  split at stripped
  · next starts =>
    obtain ⟨tail, rfl⟩ := List.isPrefixOf_iff_prefix.mp starts
    simpa using Option.some.inj stripped
  · cases stripped

theorem strip_prefix_digits (x : UInt8) (letter : toDigit 16 x = none) (sign ds : List UInt8) (among : sign ∈ [[], [0x2B]])
    (n : Nat) (digits : value 16 ds = some n) : stripPrefix [0x30, x] (sign ++ ds) = none := by
  cases stripped : stripPrefix [0x30, x] (sign ++ ds) with
  | none => rfl
  | some rest =>
      have starts := strip_prefix_some _ _ _ stripped
      rcases List.mem_cons.mp among with rfl | among
      · rw [List.nil_append] at starts
        obtain ⟨vs, read, _⟩ := (value_iff 16 ds n).mp digits
        simp [starts, List.mapM_cons, letter] at read
      · rw [List.mem_singleton.mp among] at starts
        simp at starts

-- The spellings of a number: one prefix at most, then one sign at most, then
-- digits of either case.
def Spells (s : List UInt8) (n : Nat) : Prop :=
  ∃ pre ∈ [[], ascii "0x", ascii "0X"], ∃ sign ∈ [[], [0x2B]], ∃ ds, ds ≠ [] ∧ s = pre ++ sign ++ ds ∧ value 16 ds = some n

theorem parse_hex_spells (s : List UInt8) (n : Nat) (reads : parseHex s = some n) : n < 2 ^ 64 ∧ Spells s n := by
  rw [parseHex, from_str_radix_iff 16 (by decide)] at reads
  obtain ⟨word, sign, among, ds, some_, is, digits⟩ := reads
  refine ⟨word, ?_⟩
  cases first : stripPrefix (ascii "0x") s with
  | some rest =>
      rw [first, Option.some_or, Option.getD_some] at is
      exact ⟨ascii "0x", by simp, sign, among, ds, some_, by rw [strip_prefix_some _ _ _ first, is, List.append_assoc], digits⟩
  | none =>
      rw [first, Option.none_or] at is
      cases second : stripPrefix (ascii "0X") s with
      | some rest =>
          rw [second, Option.getD_some] at is
          exact ⟨ascii "0X", by simp, sign, among, ds, some_, by rw [strip_prefix_some _ _ _ second, is, List.append_assoc],
            digits⟩
      | none =>
          rw [second, Option.getD_none] at is
          exact ⟨[], by simp, sign, among, ds, some_, is, digits⟩

theorem spells_parse_hex (s : List UInt8) (n : Nat) (word : n < 2 ^ 64) (spells : Spells s n) : parseHex s = some n := by
  have lower : ascii "0x" = [0x30, 0x78] := by decide
  have upper : ascii "0X" = [0x30, 0x58] := by decide
  obtain ⟨pre, prefixes, sign, among, ds, some_, is, digits⟩ := spells
  rw [parseHex, from_str_radix_iff 16 (by decide)]
  refine ⟨word, sign, among, ds, some_, ?_, digits⟩
  rw [is, List.append_assoc]
  simp only [List.mem_cons, List.not_mem_nil, or_false] at prefixes
  rcases prefixes with rfl | rfl | rfl
  · rw [List.nil_append, lower, upper, strip_prefix_digits 0x78 (by decide) sign ds among n digits,
      strip_prefix_digits 0x58 (by decide) sign ds among n digits]
    rfl
  · rw [strip_prefix_append, Option.some_or, Option.getD_some]
  · have other : stripPrefix (ascii "0x") (ascii "0X" ++ (sign ++ ds)) = none := by
      rw [lower, upper]
      simp [stripPrefix]
    rw [other, strip_prefix_append, Option.none_or, Option.getD_some]

theorem parse_hex_iff (s : List UInt8) (n : Nat) :
    parseHex s = some n ↔
      n < 2 ^ 64 ∧ ∃ pre ∈ [[], ascii "0x", ascii "0X"], ∃ sign ∈ [[], [0x2B]], ∃ ds,
        ds ≠ [] ∧ s = pre ++ sign ++ ds ∧ value 16 ds = some n :=
  ⟨parse_hex_spells s n, fun ⟨word, spells⟩ => spells_parse_hex s n word spells⟩

theorem map_m_digits (vs : List Nat) (small : ∀ v ∈ vs, v < 16) :
    (vs.map fun d => Monitor.hexDigit d.toUInt8).mapM (toDigit 16) = some vs := by
  have back : ∀ v < 16, toDigit 16 (Monitor.hexDigit v.toUInt8) = some v := by decide
  induction vs with
  | nil => rfl
  | cons v rest ih =>
      rw [List.map_cons, List.mapM_cons, back v (small v List.mem_cons_self),
        ih fun w later => small w (List.mem_cons_of_mem v later)]
      rfl

theorem lower_hex_value (n : Nat) : value 16 (lowerHex n) = some n := by
  rw [value_iff, lowerHex]
  by_cases zero : n = 0
  · rw [if_pos zero]
    exact ⟨[0], by decide, by simp [zero]⟩
  · rw [if_neg zero]
    refine ⟨(Nat.digits 16 n).reverse, map_m_digits _ fun v member => ?_, ?_⟩
    · exact Nat.digits_lt_base (by decide) (List.mem_reverse.mp member)
    · rw [List.reverse_reverse, Nat.ofDigits_digits]

theorem lower_hex_some (n : Nat) : lowerHex n ≠ [] := by
  unfold lowerHex
  by_cases zero : n = 0
  · simp [zero]
  · simp [zero, Nat.digits_ne_nil_iff_ne_zero]

theorem parse_alternate_hex (n : Nat) (word : n < 2 ^ 64) : parseHex (alternateHex n) = some n :=
  spells_parse_hex _ n word ⟨ascii "0x", by simp, [], by simp, lowerHex n, lower_hex_some n, by simp [alternateHex], lower_hex_value n⟩

-- A word that blanks around it do not change: it has neither at its ends.
def Bare (w : List UInt8) : Prop := w.head?.any blank = false ∧ w.getLast?.any blank = false

theorem drop_blanks (pre w : List UInt8) (blanks : ∀ b ∈ pre, blank b = true) (bare : w.head?.any blank = false)  :
    (pre ++ w).dropWhile blank = w := by
  induction pre with
  | nil =>
      cases w with
      | nil => rfl
      | cons c rest => exact List.dropWhile_cons_of_neg (Bool.eq_false_iff.mp bare)
  | cons b rest ih =>
      rw [List.cons_append, List.dropWhile_cons_of_pos (blanks b List.mem_cons_self)]
      exact ih fun c later => blanks c (List.mem_cons_of_mem b later)

theorem trim_padded (pre w post : List UInt8) (before : ∀ b ∈ pre, blank b = true) (after : ∀ b ∈ post, blank b = true)
    (bare : Bare w) : trim (pre ++ w ++ post) = w := by
  have behind : ∀ b ∈ post.reverse, blank b = true := fun b member => after b (List.mem_reverse.mp member)
  rw [trim, List.append_assoc]
  by_cases empty : w = []
  · have all : ∀ b ∈ pre ++ post, blank b = true := by
      intro b member
      rcases List.mem_append.mp member with left | right
      · exact before b left
      · exact after b right
    have gone := drop_blanks (pre ++ post) [] all rfl
    rw [List.append_nil] at gone
    rw [empty, List.nil_append, gone]
    rfl
  · have starts : (w ++ post).head?.any blank = false := by
      rw [List.head?_append_of_ne_nil w empty]
      exact bare.1
    rw [drop_blanks pre _ before starts, List.reverse_append, drop_blanks post.reverse _ behind, List.reverse_reverse]
    rw [List.head?_reverse]
    exact bare.2

theorem split_once_word (cmd rest : List UInt8) (word : 0x20 ∉ cmd) : splitOnce (cmd ++ 0x20 :: rest) = some (cmd, rest) := by
  have here : ∀ b ∈ cmd, decide (b ≠ 0x20) = true := fun b member => decide_eq_true fun no => word (no ▸ member)
  rw [splitOnce, List.span_eq_takeWhile_dropWhile, List.takeWhile_append_of_pos here, List.dropWhile_append_of_pos here]
  simp

theorem order_argument (pre cmd mid arg post : List UInt8) (before : ∀ b ∈ pre, blank b = true)
    (between : ∀ b ∈ mid, blank b = true) (after : ∀ b ∈ post, blank b = true) (bare : Bare cmd) (some_ : cmd ≠ [])
    (word : 0x20 ∉ cmd) (argument : Bare arg) (given : arg ≠ [])
    (text : Fdt.utf8 (pre ++ (cmd ++ 0x20 :: mid ++ arg) ++ post) = true) :
    order (pre ++ (cmd ++ 0x20 :: mid ++ arg) ++ post) = dispatch cmd arg := by
  have whole : Bare (cmd ++ 0x20 :: mid ++ arg) := by
    refine ⟨?_, ?_⟩
    · rw [List.append_assoc, List.head?_append_of_ne_nil cmd some_]
      exact bare.1
    · rw [List.getLast?_append_of_ne_nil _ given]
      exact argument.2
  have inner := trim_padded mid arg [] between (by simp) argument
  rw [List.append_nil] at inner
  unfold order
  rw [if_pos text, trim_padded pre _ post before after whole]
  dsimp only
  rw [List.append_assoc, List.cons_append, split_once_word cmd (mid ++ arg) word]
  dsimp only
  rw [inner]

-- What the monitor enters is ASCII: the fallback to an empty line never runs.
theorem plain_utf8 (line : List UInt8) (plain : ∀ b ∈ line, Monitor.printable b = true) : Fdt.utf8 line = true := by
  induction line with
  | nil => rfl
  | cons b rest ih =>
      have low : b < 0x80 := by
        have both := plain b List.mem_cons_self
        unfold Monitor.printable at both
        rw [Bool.and_eq_true, decide_eq_true_eq, decide_eq_true_eq, UInt8.le_iff_toNat_le, UInt8.le_iff_toNat_le] at both
        rw [UInt8.lt_iff_toNat_lt]
        exact Nat.lt_of_le_of_lt both.2 (by decide)
      rw [Fdt.utf8.eq_def]
      dsimp only
      rw [if_pos low]
      exact ih fun c later => plain c (List.mem_cons_of_mem b later)

-- What each order does to the rest of the kernel and prints, in whole rows,
-- where it returns. The fatal demos and the drops do not, nor does mapdev from
-- 2^48 on, where phys_to_virt overflows.
structure Executor (κ : Type) where
  run : κ → Order → κ × List UInt8
  rows : ∀ k o, (run k o).2 = [] ∨ ∃ text, (run k o).2 = text ++ [0x0A]

-- run_command
def Executor.commands {κ : Type} (exec : Executor κ) : Monitor.Commands κ where
  run k line := exec.run k (order line)
  rows k line := exec.rows k (order line)

section
variable {κ : Type} (cmds : Monitor.Commands κ) (k : κ)

theorem text_typed (input text : List UInt8) (plain : ∀ b ∈ text, Monitor.printable b = true)
    (fits : (Monitor.typed input).line.length + text.length ≤ 64) :
    let before := Polled.answers (Monitor.key cmds) (Monitor.boot k) input
    let after := Polled.answers (Monitor.key cmds) (Monitor.boot k) (input ++ text)
    (Monitor.typed (input ++ text)).lines = (Monitor.typed input).lines ∧
      (Monitor.typed (input ++ text)).line = (Monitor.typed input).line ++ text ∧
      after.1.kernel = before.1.kernel ∧ after.2 = before.2 ++ text := by
  induction text using List.reverseRecOn with
  | nil => simp
  | append_singleton text b ih =>
      simp only [List.length_append, List.length_singleton] at fits
      obtain ⟨lines, line, kernel, out⟩ := ih (fun c member => plain c (List.mem_append_left _ member)) (by omega)
      have shown := plain b (by simp)
      obtain ⟨home, newline, back⟩ := Monitor.printable_visible b shown
      have delete : b ≠ 0x7F := fun no => by rw [no] at shown; exact absurd shown (by decide)
      have count := Monitor.line_length (Polled.answers (Monitor.key cmds) (Monitor.boot k) (input ++ text)).1
      rw [(Monitor.answers_hold cmds k (input ++ text)).line, line, List.length_append] at count
      have room : (Polled.answers (Monitor.key cmds) (Monitor.boot k) (input ++ text)).1.len < 64 := by omega
      rw [← List.append_assoc, Monitor.typed_append, Polled.answers_append]
      have enter : ¬ (b = 0x0D ∨ b = 0x0A) := by tauto
      have erase : ¬ (b = 0x08 ∨ b = 0x7F) := by tauto
      have space : ((Monitor.typed input).line ++ text).length < 64 := by
        rw [List.length_append]
        omega
      have typed_key : (Monitor.typed (input ++ text)).key b =
          ⟨(Monitor.typed input).lines, (Monitor.typed input).line ++ text ++ [b], (Monitor.typed (input ++ text)).echo ++ [b]⟩ := by
        rw [Monitor.Typed.key, if_neg enter, if_neg erase, if_pos shown, line, if_pos space, lines]
      refine ⟨by rw [typed_key], by rw [typed_key, List.append_assoc], ?_, ?_⟩
      · simp [Polled.answers, Monitor.key, enter, erase, shown, room, kernel]
      · simp [Polled.answers, Monitor.key, enter, erase, shown, room, out]

theorem line_entered (input text : List UInt8) (fresh : (Monitor.typed input).line = [])
    (plain : ∀ b ∈ text, Monitor.printable b = true) (fits : text.length ≤ 64) :
    let before := Polled.answers (Monitor.key cmds) (Monitor.boot k) input
    let after := Polled.answers (Monitor.key cmds) (Monitor.boot k) (input ++ text ++ [0x0D])
    let ran := cmds.run before.1.kernel text
    after.1.kernel = ran.1 ∧ after.2 = before.2 ++ text ++ writeStr ([0x0A] ++ ran.2 ++ Monitor.prompt) := by
  obtain ⟨_, line, kernel, out⟩ := text_typed cmds k input text plain (by simpa [fresh] using fits)
  rw [fresh, List.nil_append] at line
  have held := (Monitor.answers_hold cmds k (input ++ text)).line
  dsimp only at kernel out ⊢
  rw [line] at held
  rw [Polled.answers_append]
  simp [Polled.answers, Monitor.key, held, kernel, out]

end

-- The commands that take an address.
def addressed : List (String × (Nat → Order)) := [("translate", .translate), ("walk", .walk), ("mapdev", .mapdev)]

-- The line that mapdev suggests: use 'walk {va:#x}' to inspect.
def mapdevHint (va : Nat) : List UInt8 := ascii "walk " ++ alternateHex va

theorem digit_plain (c : UInt8) (d : Nat) (digit : toDigit 16 c = some d) : Monitor.printable c = true ∧ blank c = false := by
  have range : (0x30 ≤ c.toNat ∧ c.toNat ≤ 0x39) ∨ (0x61 ≤ c.toNat ∧ c.toNat ≤ 0x7A) ∨ (0x41 ≤ c.toNat ∧ c.toNat ≤ 0x5A) := by
    unfold toDigit at digit
    simp only [UInt8.le_iff_toNat_le, UInt8.reduceToNat] at digit
    by_contra outside
    rw [not_or, not_or] at outside
    rw [if_neg outside.1, if_neg outside.2.1, if_neg outside.2.2, if_neg (Nat.lt_irrefl 16)] at digit
    cases digit
  unfold Monitor.printable blank
  simp only [Bool.and_eq_true, Bool.or_eq_false_iff, Bool.and_eq_false_iff, decide_eq_true_eq, decide_eq_false_iff_not,
    UInt8.le_iff_toNat_le, ← UInt8.toNat_inj, UInt8.reduceToNat]
  omega

theorem digits_read (ds : List UInt8) (vs : List Nat) (read : ds.mapM (toDigit 16) = some vs) (c : UInt8) (member : c ∈ ds) :
    ∃ d, toDigit 16 c = some d := by
  induction ds generalizing vs with
  | nil => cases member
  | cons x rest ih =>
      rw [List.mapM_cons] at read
      obtain ⟨d, digit, read⟩ := Option.bind_eq_some_iff.mp read
      obtain ⟨tail, later, _⟩ := Option.bind_eq_some_iff.mp read
      rcases List.mem_cons.mp member with rfl | behind
      · exact ⟨d, digit⟩
      · exact ih tail later behind

def solidWord (w : List UInt8) : Bool := w.all fun c => Monitor.printable c && !blank c

theorem solid_word (w : List UInt8) (check : solidWord w = true) : ∀ c ∈ w, Monitor.printable c = true ∧ blank c = false := by
  intro c member
  have letter := List.all_eq_true.mp check c member
  rwa [Bool.and_eq_true, Bool.not_eq_true'] at letter

theorem spelling_plain (s : List UInt8) (n : Nat) (reads : parseHex s = some n) :
    s ≠ [] ∧ ∀ c ∈ s, Monitor.printable c = true ∧ blank c = false := by
  obtain ⟨_, pre, prefixes, sign, signs, ds, some_, rfl, digits⟩ := parse_hex_spells s n reads
  refine ⟨by simp [some_], fun c member => ?_⟩
  have front : ∀ w ∈ [[], ascii "0x", ascii "0X"] ++ [[], [0x2B]], ∀ c ∈ w, Monitor.printable c = true ∧ blank c = false :=
    fun w among => solid_word w (Monitor.checked _ (fun w => solidWord w = true) (by decide) w among)
  rcases List.mem_append.mp member with before | digit
  · rcases List.mem_append.mp before with first | second
    · exact front pre (List.mem_append_left _ prefixes) c first
    · exact front sign (List.mem_append_right _ signs) c second
  · obtain ⟨vs, read, _⟩ := (value_iff 16 ds n).mp digits
    obtain ⟨d, is⟩ := digits_read ds vs read c digit
    exact digit_plain c d is

theorem dispatch_address (word : String) (arm : Nat → Order) (among : (word, arm) ∈ addressed) (s : List UInt8) (n : Nat)
    (reads : parseHex s = some n) : dispatch (ascii word) s = arm n := by
  have translate : dispatch (ascii "translate") s = ((parseHex s).map .translate).getD .translateUsage := rfl
  have walk : dispatch (ascii "walk") s = ((parseHex s).map .walk).getD .walkUsage := rfl
  have mapdev : dispatch (ascii "mapdev") s = ((parseHex s).map .mapdev).getD .mapdevUsage := rfl
  rw [reads] at translate walk mapdev
  simp only [addressed, List.mem_cons, Prod.mk.injEq, List.not_mem_nil, or_false] at among
  rcases among with ⟨rfl, rfl⟩ | ⟨rfl, rfl⟩ | ⟨rfl, rfl⟩
  · exact translate
  · exact walk
  · exact mapdev

theorem bare_of_solid (w : List UInt8) (solid : ∀ c ∈ w, blank c = false) : Bare w := by
  refine ⟨?_, ?_⟩
  · cases first : w.head? with
    | none => rfl
    | some c => exact solid c (List.mem_of_mem_head? first)
  · cases last : w.getLast? with
    | none => rfl
    | some c => exact solid c (List.mem_of_getLast? last)

def spaces (n : Nat) : List UInt8 := List.replicate n 0x20

theorem spaces_blank (n : Nat) : ∀ b ∈ spaces n, blank b = true ∧ Monitor.printable b = true := by
  intro b member
  rw [List.eq_of_mem_replicate member]
  decide

theorem address_order (word : String) (arm : Nat → Order) (among : (word, arm) ∈ addressed) (spelling : List UInt8) (n : Nat)
    (reads : parseHex spelling = some n) (pre mid post : Nat) :
    let text := spaces pre ++ (ascii word ++ 0x20 :: spaces mid ++ spelling) ++ spaces post
    (∀ b ∈ text, Monitor.printable b = true) ∧ order text = arm n := by
  intro text
  obtain ⟨given, solid⟩ := spelling_plain spelling n reads
  have words : ∀ entry ∈ addressed, ascii entry.1 ≠ [] ∧
      ∀ c ∈ ascii entry.1, Monitor.printable c = true ∧ blank c = false :=
    fun entry among => ⟨Monitor.checked _ (fun entry => ascii entry.1 ≠ []) (by decide) entry among,
      solid_word _ (Monitor.checked _ (fun entry => solidWord (ascii entry.1) = true) (by decide) entry among)⟩
  obtain ⟨some_, letters⟩ := words (word, arm) among
  have no_space : 0x20 ∉ ascii word := fun no => absurd (letters 0x20 no).2 (by decide)
  have plain : ∀ b ∈ text, Monitor.printable b = true := by
    intro b member
    simp only [text, List.mem_append, List.mem_cons] at member
    rcases member with (before | (letter | rfl | between) | digit) | after
    · exact (spaces_blank pre b before).2
    · exact (letters b letter).1
    · decide
    · exact (spaces_blank mid b between).2
    · exact (solid b digit).1
    · exact (spaces_blank post b after).2
  refine ⟨plain, ?_⟩
  rw [order_argument (spaces pre) (ascii word) (spaces mid) spelling (spaces post) (fun b member => (spaces_blank pre b member).1)
    (fun b member => (spaces_blank mid b member).1) (fun b member => (spaces_blank post b member).1)
    (bare_of_solid _ fun c member => (letters c member).2) some_ no_space (bare_of_solid _ fun c member => (solid c member).2)
    given (plain_utf8 _ plain)]
  exact dispatch_address word arm among spelling n reads

section
variable {κ : Type} (exec : Executor κ) (k : κ)

-- Whatever spelling of an address parse_hex takes, with spaces where they may
-- stand: typed at a fresh prompt it comes to the command with that address.
theorem address_line_runs (word : String) (arm : Nat → Order) (among : (word, arm) ∈ addressed) (spelling : List UInt8) (n : Nat)
    (reads : parseHex spelling = some n) (pre mid post : Nat) (input : List UInt8) (fresh : (Monitor.typed input).line = [])
    (fits : pre + (ascii word).length + 1 + mid + spelling.length + post ≤ 64) :
    let text := spaces pre ++ (ascii word ++ 0x20 :: spaces mid ++ spelling) ++ spaces post
    let before := Polled.answers (Monitor.key exec.commands) (Monitor.boot k) input
    let after := Polled.answers (Monitor.key exec.commands) (Monitor.boot k) (input ++ text ++ [0x0D])
    let ran := exec.run before.1.kernel (arm n)
    after.1.kernel = ran.1 ∧ after.2 = before.2 ++ text ++ writeStr ([0x0A] ++ ran.2 ++ Monitor.prompt) := by
  obtain ⟨plain, is⟩ := address_order word arm among spelling n reads pre mid post
  have ran := line_entered exec.commands k input _ fresh plain (by simp [spaces]; omega)
  dsimp only [Executor.commands] at ran ⊢
  rw [is] at ran
  exact ran

-- Orders that are only noted down.
def journal : Executor (List Order) where
  run k o := (k ++ [o], [])
  rows _ _ := .inl rfl

theorem address_line_runs_walk :
    let text := spaces 1 ++ (ascii "walk" ++ 0x20 :: spaces 2 ++ ascii "0X+fF") ++ spaces 1
    (Polled.answers (Monitor.key journal.commands) (Monitor.boot []) ([] ++ text ++ [0x0D])).1.kernel = [.walk 0xFF] :=
  (address_line_runs journal [] "walk" .walk (by simp [addressed]) (ascii "0X+fF") 0xFF (by decide) 1 2 1 [] rfl
    (by decide)).1

theorem alternate_hex_length (n : Nat) (word : n < 2 ^ 64) : (alternateHex n).length ≤ 18 := by
  have digits : (lowerHex n).length ≤ 16 := by
    unfold lowerHex
    by_cases zero : n = 0
    · simp [zero]
    · rw [if_neg zero, List.length_map, List.length_reverse, Nat.digits_length_le_iff (by decide)]
      exact Nat.lt_of_lt_of_le word (by decide)
  rw [alternateHex, List.length_append]
  exact Nat.add_le_add (Nat.le_of_eq (by decide : (ascii "0x").length = 2)) digits

-- The line that mapdev prints as a hint walks the address it has mapped.
theorem hint_walks (va : Nat) (word : va < 2 ^ 64) (input : List UInt8) (fresh : (Monitor.typed input).line = []) :
    let before := Polled.answers (Monitor.key exec.commands) (Monitor.boot k) input
    let after := Polled.answers (Monitor.key exec.commands) (Monitor.boot k) (input ++ mapdevHint va ++ [0x0D])
    after.1.kernel = (exec.run before.1.kernel (.walk va)).1 := by
  have short := alternate_hex_length va word
  have same : spaces 0 ++ (ascii "walk" ++ 0x20 :: spaces 0 ++ alternateHex va) ++ spaces 0 = mapdevHint va := by
    have split : ascii "walk " = ascii "walk" ++ [0x20] := by decide
    rw [mapdevHint, split]
    simp [spaces]
  obtain ⟨plain, is⟩ := address_order "walk" .walk (by simp [addressed]) (alternateHex va) va (parse_alternate_hex va word) 0 0 0
  rw [same] at plain is
  have ran := (line_entered exec.commands k input (mapdevHint va) fresh plain (by
    rw [← same]
    have four : (ascii "walk").length = 4 := by decide
    simp [spaces]
    omega)).1
  dsimp only [Executor.commands] at ran ⊢
  rw [is] at ran
  exact ran

end

end CommandLine

end Opal
